import DataAccess.Proofs.Compile.Resolution
import DataAccess.Proofs.Rows.ColumnPartition
import DataAccess.Proofs.Statement.Numbering

/-!
Placeholders and parameters. Every placeholder of a method that resolves reads a parameter, and every
parameter is read; what does not match is reported. Use is judged by the names of parameters, so that
a parameter that nothing reads is found if and only if none that is read has its name.
-/

set_option autoImplicit false

namespace DataAccess.Statement

open Rows Sql

/-- The position of the parameter that a target selects: the first one with the name, or the one that
is given. -/
def positionOf? (params : List QueryParam) : BindTarget → Option Nat
  | .named name => params.findIdx? (·.placeholder = name)
  | .index n => if priorIndex n < params.length then some (priorIndex n) else none

theorem paramOf?_eq (params : List QueryParam) (t : BindTarget) :
    paramOf? params t = (positionOf? params t).bind (params[·]?) := by
  cases t with
  | named name => exact List.find?_eq_bind_findIdx?_getElem?
  | index n =>
    rw [paramOf?, positionOf?]
    split
    · rfl
    · exact List.getElem?_eq_none (Nat.le_of_not_lt ‹_›)

/-- Two filters, one of which implies the other, select the same if they are the same. -/
theorem map_filter_eq_iff {α β : Type} {p q : α → Bool} {f : α → β} {xs : List α}
    (h : ∀ x ∈ xs, p x = true → q x = true) :
    (xs.filter p).map f = (xs.filter q).map f ↔ ∀ x ∈ xs, q x = true → p x = true := by
  constructor
  · intro heq
    have hfilter : xs.filter p = (xs.filter q).filter p := by
      rw [List.filter_filter]
      refine List.filter_congr fun x hx => ?_
      cases hp : p x with
      | false => rfl
      | true => rw [h x hx hp]; rfl
    have hlength := congrArg List.length heq
    rw [List.length_map, List.length_map, hfilter] at hlength
    have hself := List.filter_sublist.eq_of_length hlength
    intro x hx hq
    exact List.filter_eq_self.1 hself x (List.mem_filter.2 ⟨hx, hq⟩)
  · intro hback
    rw [List.filter_congr fun x hx => Bool.eq_iff_iff.2 ⟨h x hx, hback x hx⟩]

namespace BoundQuery

/-- The position of the parameter that the placeholder at a position reads. -/
def readPosition? (b : BoundQuery) (k : Nat) : Option Nat :=
  b.query.bindTargets[k]?.bind (positionOf? b.params)

/-- The positions of the parameters that placeholders read. -/
def readPositions (b : BoundQuery) : List Nat := b.query.bindTargets.filterMap (positionOf? b.params)

/-- The names of the placeholders that read no parameter. -/
def unresolved (b : BoundQuery) : List String :=
  (b.bindings.filter (·.param.isNone)).map Binding.displayName

/-- The parameters that no placeholder reads, by the names for placeholders. -/
def unread (b : BoundQuery) : List String :=
  (b.params.zipIdx.filter fun (_, i) => i ∉ b.readPositions).map fun (p, _) => p.placeholder

/-- Every placeholder reads a parameter, and every parameter is read. -/
structure Matched (b : BoundQuery) : Prop where
  total : ∀ k < (b.query.sections.filter Section.isBind).length,
    ∃ i < b.params.length, b.readPosition? k = some i
  onto : ∀ i < b.params.length,
    ∃ k < (b.query.sections.filter Section.isBind).length, b.readPosition? k = some i

/-- One error with all the names, if there are any. -/
def namesReport (problem : List String → Problem) (names : List String) (anchor : Option String) :
    Log :=
  if names = [] then [] else [⟨.error, problem names, anchor⟩]

/-- What is reported for placeholders without a parameter and for unused parameters. -/
def mismatches (b : BoundQuery) (anchor : Option String) : Log :=
  namesReport .missingParameters b.missing anchor ++ namesReport .unusedParameters b.unused anchor

section Reading

variable {b : BoundQuery} {i k : Nat}

theorem length_bindTargets (b : BoundQuery) :
    b.query.bindTargets.length = (b.query.sections.filter Section.isBind).length := by
  rw [length_filter_isBind, length_bindings, Query.bindTargets, length_targetsFrom]

/-- The placeholders are paired with what they read. -/
theorem param_bindings (b : BoundQuery) (k : Nat) :
    b.bindings[k]?.bind Binding.param = (b.readPosition? k).bind (b.params[·]?) := by
  have hlength : b.query.bindTargets.length = b.query.binds.length := length_targetsFrom ..
  rw [bindings, List.getElem?_map, readPosition?]
  cases htarget : b.query.bindTargets[k]? with
  | none =>
    have hzip : (b.query.binds.zip b.query.bindTargets)[k]? = none := by
      rw [List.getElem?_eq_none_iff] at htarget ⊢
      rw [List.length_zip]
      omega
    rw [hzip]
    rfl
  | some t =>
    have hk : k < b.query.binds.length := hlength ▸ (List.getElem?_eq_some_iff.1 htarget).1
    have hzip : (b.query.binds.zip b.query.bindTargets)[k]? = some (b.query.binds[k], t) :=
      List.getElem?_zip_eq_some.2 ⟨List.getElem?_eq_getElem hk, htarget⟩
    rw [hzip]
    exact paramOf?_eq b.params t

theorem mem_readPositions :
    i ∈ b.readPositions ↔
      ∃ k < (b.query.sections.filter Section.isBind).length, b.readPosition? k = some i := by
  rw [readPositions, List.mem_filterMap, ← length_bindTargets]
  constructor
  · rintro ⟨t, ht, hread⟩
    obtain ⟨k, hk, rfl⟩ := List.mem_iff_getElem.1 ht
    exact ⟨k, hk, by rw [readPosition?, List.getElem?_eq_getElem hk]; exact hread⟩
  · rintro ⟨k, hk, hread⟩
    rw [readPosition?, List.getElem?_eq_getElem hk] at hread
    exact ⟨_, List.getElem_mem hk, hread⟩

/-- The parameters that are read are those at the positions that are read. -/
theorem exists_param_iff {p : QueryParam} :
    (∃ c ∈ b.bindings, c.param = some p) ↔ ∃ i ∈ b.readPositions, b.params[i]? = some p := by
  constructor
  · rintro ⟨c, hc, hp⟩
    obtain ⟨k, hk, rfl⟩ := List.mem_iff_getElem.1 hc
    have hparam := param_bindings b k
    rw [List.getElem?_eq_getElem hk] at hparam
    obtain ⟨i, hi, hpi⟩ := Option.bind_eq_some_iff.1 (hparam.symm.trans hp)
    refine ⟨i, mem_readPositions.2 ⟨k, ?_, hi⟩, hpi⟩
    rwa [length_filter_isBind]
  · rintro ⟨i, hi, hp⟩
    obtain ⟨k, hk, hread⟩ := mem_readPositions.1 hi
    rw [length_filter_isBind] at hk
    have hparam := param_bindings b k
    rw [List.getElem?_eq_getElem hk, hread] at hparam
    exact ⟨_, List.getElem_mem hk, hparam.trans hp⟩

theorem text_bindings (b : BoundQuery) :
    b.bindings.map Binding.text = (b.query.sections.filter Section.isBind).map Section.source := by
  have hlength : b.query.bindTargets.length = b.query.binds.length := length_targetsFrom ..
  rw [filter_isBind, List.map_map, bindings, List.map_map]
  conv_rhs => rw [← List.map_fst_zip hlength.ge, List.map_map]
  rfl

/-! What is missing. -/

theorem mem_missing {n : String} :
    n ∈ b.missing ↔ ∃ c ∈ b.bindings, c.param = none ∧ c.displayName = n := by
  simp [missing, List.mem_eraseDups, and_assoc]

/-- If nothing is missing, every placeholder reads a parameter. -/
theorem total_of_missing_eq_nil (h : b.missing = [])
    (hk : k < (b.query.sections.filter Section.isBind).length) :
    ∃ i < b.params.length, b.readPosition? k = some i := by
  rw [length_filter_isBind] at hk
  have hparam := param_bindings b k
  rw [List.getElem?_eq_getElem hk, Option.bind_some] at hparam
  cases hp : b.bindings[k].param with
  | none =>
    have hmem := mem_missing.2 ⟨b.bindings[k], List.getElem_mem hk, hp, rfl⟩
    exact absurd (h ▸ hmem) List.not_mem_nil
  | some p =>
    obtain ⟨i, hi, hpi⟩ := Option.bind_eq_some_iff.1 (hparam.symm.trans hp)
    exact ⟨i, (List.getElem?_eq_some_iff.1 hpi).1, hi⟩

/-! What is unused. -/

/-- No parameter that is read has the name. -/
def NoneReadNamed (b : BoundQuery) (name : String) : Prop :=
  ∀ j ∈ b.readPositions, ∀ q, b.params[j]? = some q → q.name ≠ name

theorem isUnused_iff {p : QueryParam} :
    (!(b.bindings.filterMap Binding.param).any (·.name = p.name)) = true ↔
      b.NoneReadNamed p.name := by
  have hread (q : QueryParam) := exists_param_iff (b := b) (p := q)
  simp only [Bool.not_eq_true', List.any_eq_false, List.mem_filterMap, decide_eq_true_eq, hread]
  exact ⟨fun h j hj q hq => h q ⟨j, hj, hq⟩, fun h q ⟨j, hj, hq⟩ => h j hj q hq⟩

/-- A parameter that is unused is not read. -/
theorem NoneReadNamed.not_mem {p : QueryParam} (h : b.NoneReadNamed p.name)
    (hp : b.params[i]? = some p) : i ∉ b.readPositions :=
  fun hi => h i hi p hp rfl

/-- Judging by the names finds the parameters that are not read if and only if none of them has the
name of one that is. -/
theorem unused_eq_unread_iff : b.unused = b.unread ↔
    ∀ i p, b.params[i]? = some p → i ∉ b.readPositions → b.NoneReadNamed p.name := by
  have hpositions : b.unused = (b.params.zipIdx.filter fun (p, _) =>
      !(b.bindings.filterMap Binding.param).any (·.name = p.name)).map fun (p, _) => p.placeholder := by
    rw [unused]
    conv_lhs => rw [← List.zipIdx_map_fst 0 b.params]
    rw [List.filter_map, List.map_map]
    rfl
  have hsub : ∀ x ∈ b.params.zipIdx,
      (!(b.bindings.filterMap Binding.param).any (·.name = x.1.name)) = true →
        decide (x.2 ∉ b.readPositions) = true := by
    rintro ⟨p, i⟩ hx hunused
    rw [List.mk_mem_zipIdx_iff_getElem?] at hx
    exact decide_eq_true ((isUnused_iff.1 hunused).not_mem hx)
  rw [hpositions, unread, map_filter_eq_iff hsub]
  constructor
  · intro h i p hp hi
    exact isUnused_iff.1 (h (p, i) (List.mk_mem_zipIdx_iff_getElem?.2 hp) (decide_eq_true hi))
  · rintro h ⟨p, i⟩ hx hi
    exact isUnused_iff.2 (h i p (List.mk_mem_zipIdx_iff_getElem?.1 hx) (of_decide_eq_true hi))

/-- The second of two parameters with one name passes for read. -/
example :
    let b : BoundQuery := ⟨Query.parse "SELECT * FROM user WHERE id = :first",
      [⟨"id", "first", .string, none⟩, ⟨"id", "second", .string, none⟩]⟩
    b.unused = [] ∧ b.unread = ["second"] := by
  decide +kernel

theorem noneReadNamed_of_nodup (h : (b.params.map QueryParam.name).Nodup) {p : QueryParam}
    (hp : b.params[i]? = some p) (hi : i ∉ b.readPositions) : b.NoneReadNamed p.name := by
  intro j hj q hq hname
  have hsame : (b.params.map QueryParam.name)[j]? = (b.params.map QueryParam.name)[i]? := by
    rw [List.getElem?_map, List.getElem?_map, hq, hp, Option.map_some, Option.map_some, hname]
  have hlt : j < (b.params.map QueryParam.name).length := by
    rw [List.length_map]
    exact (List.getElem?_eq_some_iff.1 hq).1
  exact hi ((List.getElem?_inj hlt h).1 hsame ▸ hj)

/-- If nothing is unused, every parameter is read, provided that they have different names. -/
theorem onto_of_unused_eq_nil (h : b.unused = []) (hnames : (b.params.map QueryParam.name).Nodup)
    (hi : i < b.params.length) :
    ∃ k < (b.query.sections.filter Section.isBind).length, b.readPosition? k = some i := by
  rw [← mem_readPositions]
  by_contra hread
  rw [unused_eq_unread_iff.2 fun i p => noneReadNamed_of_nodup hnames, unread,
    List.map_eq_nil_iff] at h
  have hmem : (b.params[i], i) ∈ b.params.zipIdx.filter fun (_, i) => i ∉ b.readPositions :=
    List.mem_filter.2 ⟨List.mk_mem_zipIdx_iff_getElem?.2 (List.getElem?_eq_getElem hi),
      decide_eq_true hread⟩
  exact absurd (h ▸ hmem) List.not_mem_nil

/-- What passes both checks is matched, provided that the parameters have different names. -/
theorem matched_of_checked (hmissing : b.missing = []) (hunused : b.unused = [])
    (hnames : (b.params.map QueryParam.name).Nodup) : b.Matched where
  total _ hk := total_of_missing_eq_nil hmissing hk
  onto _ hi := onto_of_unused_eq_nil hunused hnames hi

end Reading

section Reports

variable {b : BoundQuery}

theorem finds_namesReport (problem : List String → Problem) (names : List String) :
    Finds (if !names.isEmpty then Report.error (problem names) else pure ()) ()
      (namesReport problem names) := by
  cases names with
  | nil => exact finds_pure ()
  | cons n names => exact finds_error (problem (n :: names))

theorem errors_namesReport (problem : List String → Problem) (names : List String)
    (anchor : Option String) :
    (namesReport problem names anchor).errors = namesReport problem names anchor := by
  cases names <;> rfl

theorem namesReport_eq_nil_iff {problem : List String → Problem} {names : List String}
    {anchor : Option String} : namesReport problem names anchor = [] ↔ names = [] := by
  cases names <;> simp [namesReport]

/-- Each kind of mismatch is reported once. -/
theorem finds_check (b : BoundQuery) : Finds b.check () b.mismatches := by
  have hcheck : b.check = (do
      (if !b.missing.isEmpty then Report.error (.missingParameters b.missing) else pure ())
      if !b.unused.isEmpty then Report.error (.unusedParameters b.unused) else pure ()) := by
    rw [check]
    cases !b.missing.isEmpty <;> rfl
  rw [hcheck]
  exact (finds_namesReport .missingParameters b.missing).bind
    (finds_namesReport .unusedParameters b.unused)

theorem errors_mismatches (b : BoundQuery) (anchor : Option String) :
    (b.mismatches anchor).errors = b.mismatches anchor := by
  rw [mismatches, Log.errors_append, errors_namesReport, errors_namesReport]

/-- Nothing is missing or unused when no error is reported. -/
theorem nil_of_yields_check (h : Yields b.check () 0) : b.missing = [] ∧ b.unused = [] := by
  have hcount := h.errors {}
  rw [(finds_check b).run, Logger.errorCount_replay, Log.errorCount, Log.errors_without,
    errors_mismatches] at hcount
  have hnone := List.length_eq_zero_iff.1 (Nat.add_left_cancel hcount)
  rw [mismatches, List.append_eq_nil_iff, namesReport_eq_nil_iff, namesReport_eq_nil_iff] at hnone
  exact hnone

end Reports

end BoundQuery

end DataAccess.Statement

namespace DataAccess.Compile

open Delivery Rows Schema Sql Statement

/-- A parameter keeps its names. -/
theorem names_of_yields {store : Convert.Store} {p : Param} {q : QueryParam} {n : Nat}
    (h : Yields (QueryParam.resolve store p) q n) :
    (q.name, q.placeholder) = (p.name, p.placeholder) := by
  have hvalue : ((QueryParam.resolve store p).run {}).1 =
      ⟨p.name, p.placeholder, p.type, store.argument? p.type⟩ := by
    unfold QueryParam.resolve
    cases store.argument? p.type <;> rfl
  rw [← h.value {}, hvalue]

namespace QueryMethod

variable {s : Setting} {m : Schema.Method} {q : QueryMethod}

/-- The query and the parameters of a method that resolves have been checked. -/
theorem checked_of_resolveText {text : String} (h : Yields (resolveText s m text) (some q) 0) :
    q.bound.query = (resolveNarrowed s m (Query.parse text)).answer.query ∧
      q.bound.params.map (fun p => (p.name, p.placeholder)) =
        m.params.map (fun p => (p.name, p.placeholder)) ∧ Yields q.bound.check () 0 := by
  rw [resolveText_of_errors (errors_of_resolveText h)] at h
  obtain ⟨params, hparams, h⟩ := h.of_bind (steady_params ..) fun _ =>
    (steady_resolveNarrowed ..).bind fun _ => steady_finish ..
  obtain ⟨r, hr, h⟩ := h.of_bind (steady_resolveNarrowed ..) fun _ => steady_finish ..
  obtain ⟨u, -, h⟩ := h.of_bind (steady_checkBinder ..) fun _ =>
    (steady_check _).bind fun _ => steady_pure _
  obtain ⟨v, hcheck, h⟩ := h.of_bind (steady_check _) fun _ => steady_pure _
  obtain ⟨hq, -⟩ := h.unique (yields_pure _)
  obtain rfl := Option.some.inj hq
  have hnames := (hparams.of_mapM (steady_queryParam s.store)).imp fun _ _ => names_of_yields
  refine ⟨congrArg Resolution.query (hr.value {}).symm, ?_, hcheck⟩
  rw [← List.forall₂_eq_eq_eq, List.forall₂_map_left_iff, List.forall₂_map_right_iff]
  exact hnames.flip

/-- The checks that end a resolution report what does not match behind what is wrong with the
result. -/
theorem run_checks (m : Schema.Method) (r : Resolution) (params : List QueryParam) (l : Logger) :
    ((do checkBinder m r; BoundQuery.check ⟨r.query, params⟩).run l).2 =
      ((checkBinder m r).run l).2.replay ((BoundQuery.mk r.query params).mismatches l.anchor) := by
  obtain ⟨u, log, hbinder⟩ := steady_checkBinder m r
  have hrun : ((do checkBinder m r; BoundQuery.check ⟨r.query, params⟩).run l).2 =
      ((BoundQuery.check ⟨r.query, params⟩).run ((checkBinder m r).run l).2).2 := rfl
  have herrors : ∀ anchor, ∀ d ∈ (BoundQuery.mk r.query params).mismatches anchor, d.isError = true :=
    fun anchor => List.filter_eq_self.1 (BoundQuery.errors_mismatches _ anchor)
  rw [hrun, (BoundQuery.finds_check _).run, hbinder.run, Log.without_of_forall_isError (herrors _)]
  rfl

end QueryMethod

/-- Placeholders and parameters match both ways. When a method whose parameters have different names
resolves, every placeholder of its final query reads a parameter, and every parameter is read. For any
query and parameters, the names of the placeholders that read nothing are missing, each once, in the
order of their first occurrences; the parameters that nothing reads are unused, in their order, if and
only if none of them has the name of one that is read; and each of these lists is reported by one error
unless it is empty. -/
theorem placeholders_match_params (s : Setting) (m : Schema.Method) (l : Logger) :
    (∀ q, ((QueryMethod.resolve s m).run l).1 = some q → (m.params.map Param.name).Nodup →
      (∃ text, m.sql = some text ∧
        q.bound.query = (QueryMethod.resolveNarrowed s m (Query.parse text)).answer.query) ∧
      q.bound.params.map (fun p => (p.name, p.placeholder)) =
        m.params.map (fun p => (p.name, p.placeholder)) ∧
      q.bound.Matched) ∧
    (∀ b : BoundQuery,
      b.bindings.map Binding.text = (b.query.sections.filter Section.isBind).map Section.source ∧
      (∀ k, b.bindings[k]?.bind Binding.param = (b.readPosition? k).bind (b.params[·]?)) ∧
      ((∀ n, n ∈ b.missing ↔ n ∈ b.unresolved) ∧ b.missing.Nodup ∧
        InFirstOrder b.unresolved b.missing) ∧
      (b.unused = b.unread ↔
        ∀ i p, b.params[i]? = some p → i ∉ b.readPositions → b.NoneReadNamed p.name)) ∧
    ∀ (r : Resolution) (params : List QueryParam),
      ((do QueryMethod.checkBinder m r; BoundQuery.check ⟨r.query, params⟩).run l).2 =
        ((QueryMethod.checkBinder m r).run l).2.replay
          ((BoundQuery.mk r.query params).mismatches l.anchor) := by
  refine ⟨fun q hq hnames => ?_, fun b => ⟨b.text_bindings, b.param_bindings, ?_,
    b.unused_eq_unread_iff⟩, fun r params => QueryMethod.run_checks m r params l⟩
  · obtain ⟨text, hsql, hyields⟩ := QueryMethod.yields_of_resolve hq
    obtain ⟨hquery, hparams, hcheck⟩ := QueryMethod.checked_of_resolveText hyields
    obtain ⟨hmissing, hunused⟩ := BoundQuery.nil_of_yields_check hcheck
    refine ⟨⟨text, hsql, hquery⟩, hparams, BoundQuery.matched_of_checked hmissing hunused ?_⟩
    have hsame := congrArg (List.map Prod.fst) hparams
    rw [List.map_map, List.map_map] at hsame
    exact hsame ▸ hnames
  · exact ⟨fun n => List.mem_eraseDups, nodup_eraseDups _, inFirstOrder_eraseDups _⟩

/-- A verifier that reports three columns for one query and two for every other one. -/
def wideVerifier : Verifier := fun text =>
  { columns := [⟨"id", none⟩, ⟨"name", none⟩] ++
      if text = "SELECT * FROM user WHERE id IN (:third, ?, ?1)" then [⟨"age", none⟩] else [] }

def wideSetting : Setting where
  store :=
    { decls := { records := [{ name := "UserName", fields := [
        { name := "id", type := .mk "i64" [] }, { name := "name", type := .mk "String" [] }] }] }
      maxHops := 2
      custom := [] }
  providers := Providers.builtIn
  rewriters := [.removeUnusedColumns]
  verifier := some wideVerifier

def anyOfMethod : Schema.Method where
  name := "any_of"
  sql := some "SELECT * FROM user WHERE id IN (:third, ?, ?1)"
  params := [⟨"a", .mk "i64" [], none⟩, ⟨"b", .mk "i64" [], none⟩, ⟨"c", .mk "i64" [], some "third"⟩]
  returns := .mk "Vec" [.mk "UserName" []]

/-- A narrowed query reads its parameters by a name, by the next position and by a given one. -/
theorem matched_anyOfMethod :
    (anyOfMethod.params.map Param.name).Nodup ∧
      ∃ q, ((QueryMethod.resolve wideSetting anyOfMethod).run {}).1 = some q ∧
        q.bound.query.rewrittenFrom = anyOfMethod.sql ∧ q.bound.Matched := by
  have hnames : (anyOfMethod.params.map Param.name).Nodup := by decide
  have hquery : ((QueryMethod.resolve wideSetting anyOfMethod).run {}).1.map
      (·.bound.query.rewrittenFrom) = some anyOfMethod.sql := by
    decide +kernel
  obtain ⟨q, hq, hrewritten⟩ := Option.map_eq_some_iff.1 hquery
  exact ⟨hnames, q, hq, hrewritten, ((placeholders_match_params _ _ _).1 q hq hnames).2.2⟩

end DataAccess.Compile
