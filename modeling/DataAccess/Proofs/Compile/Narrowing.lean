import DataAccess.Proofs.Compile.Resolution
import DataAccess.Proofs.Rows.Pruning
import DataAccess.Proofs.Sql.SelectStatement

/-!
Methods whose query is narrowed. A verifier accepts the narrowed form of a query that it accepts,
unless the query ends with a terminator, which then stands inside parentheses, or nothing is left to
select. Such a method resolves without the narrowing only.
-/

set_option autoImplicit false

namespace DataAccess.Compile

open Code Delivery Rows Schema Sql Statement

/-- What ends a statement. -/
def IsTerminator (x : Lexeme) : Prop := x.kind = .punct ∧ (x.text = [';'] ∨ x.text = ['\x00'])

def Terminated (text : String) : Prop := ∃ x ∈ lexemes text.toList, IsTerminator x

/-- Names of columns that a selection can repeat. -/
structure PlainNames (names : List String) : Prop where
  unquoted : ∀ n ∈ names, '`' ∉ n.toList
  distinct : (names.map Text.asciiLower).Nodup
  /-- A column with the name of a truth value is renamed. -/
  proper : ∀ n ∈ names, Text.asciiLower n ≠ "true" ∧ Text.asciiLower n ≠ "false"

/-- How a verifier takes a query that it accepts once it is the source of a selection. -/
structure Verifier.Encloses (verifier : Verifier) : Prop where
  /-- A selection of some of the columns of a single selection is accepted and has these columns. -/
  selection : ∀ columns text, (verifier text).error = none → (Query.parse text).errors = [] →
    (Query.parse text).kind = .select → ¬Terminated text → columns ≠ [] →
    (∀ c ∈ columns, c ∈ (verifier text).columnNames) → PlainNames (verifier text).columnNames →
    (Query.parse (selectionFrom columns text)).errors = [] →
    (verifier (selectionFrom columns text)).error = none ∧
      (verifier (selectionFrom columns text)).columnNames = columns
  /-- A terminator inside parentheses is refused. -/
  terminator : ∀ columns text, (Query.parse text).errors = [] → (∀ c ∈ columns, '`' ∉ c.toList) →
    Terminated text → (verifier (selectionFrom columns text)).error ≠ none
  /-- A selection of nothing is refused. -/
  projection : ∀ text, (verifier (selectionFrom [] text)).error ≠ none

theorem applyAll_nil (query : Query) (row : Row) : Rewriter.applyAll [] query row = query := rfl

/-- A narrowed query says nothing about its columns, so that it is not narrowed again. -/
theorem pruneWith_pruneWith (grammar : List Char → Option Summary) (query : Query) (row : Row) :
    pruneWith grammar (pruneWith grammar query row) row = pruneWith grammar query row := by
  by_cases h : pruneWith grammar query row = query
  · rw [h, h]
  · obtain ⟨columns, -, -, heq⟩ := pruneWith_cases h
    rw [heq]
    by_contra hne
    obtain ⟨columns, hkept, -⟩ := pruneWith_cases hne
    obtain ⟨_, info, -, hinfo, -⟩ := keptColumns?_cases hkept
    exact absurd hinfo nofun

/-- All rewriters together do what one of them does. -/
theorem applyAll_cons (r : Rewriter) (rs : List Rewriter) (query : Query) (row : Row) :
    Rewriter.applyAll (r :: rs) query row = pruneWith Grammar.summary? query row := by
  have hrest : ∀ rs : List Rewriter, Rewriter.applyAll rs (pruneWith Grammar.summary? query row) row =
      pruneWith Grammar.summary? query row := by
    intro rs
    induction rs with
    | nil => rfl
    | cons r rs ih =>
      have hstep : Rewriter.applyAll (r :: rs) (pruneWith Grammar.summary? query row) row =
        Rewriter.applyAll rs (pruneWith Grammar.summary? (pruneWith Grammar.summary? query row) row)
          row := rfl
      rw [hstep, pruneWith_pruneWith, ih]
  exact hrest rs

/-- A query that is narrowed, with its delivery before and the columns that are kept. -/
structure Narrowing where
  declared : String
  binder : ReadBinder
  columns : List String
  query : Query

/-- How the query of a method is narrowed, if it is. -/
def narrowing? (s : Setting) (m : Schema.Method) : Option Narrowing := do
  let text ← m.sql
  let first := ((QueryMethod.resolveQuery s m (Query.parse text)).run {}).1
  let query ← QueryMethod.rewritten? s first
  match first.binder with
  | .read binder =>
    let result ← binder.result
    return ⟨text, binder, ← keptColumns? first.query result.row, query⟩
  | .write _ => none

/-- A narrowed query that resolves like the one it replaces. -/
structure Narrowing.Resolves (n : Narrowing) : Prop where
  unterminated : ¬Terminated n.declared
  projection : n.columns ≠ []
  observing : n.binder.KeepsObserving n.query

theorem summary?_selectionFrom (columns : List String) (text : String) (summary : Summary)
    (h : Grammar.summary? (selectionFrom columns text).toList = some summary) :
    summary.kind = .select := by
  rw [toList_selectionFrom] at h
  exact Grammar.summary?_select h

/-- A narrowed query is a selection with the placeholders of the query. -/
theorem parse_selectionFrom {columns : List String} {text : String}
    (hplain : ∀ c ∈ columns, '`' ∉ c.toList) (htext : (Query.parse text).errors = [])
    (h : (Query.parse (selectionFrom columns text)).errors = []) :
    (Query.parse (selectionFrom columns text)).kind = .select ∧
      (Query.parse (selectionFrom columns text)).binds = (Query.parse text).binds := by
  have hquery := ((parseWith_errors_eq_nil_iff Grammar.summary?).1 htext).1
  have hwhole := ((parseWith_errors_eq_nil_iff Grammar.summary?).1 h).1
  have hlexemes := lexemes_selectionFrom_of_wellformed hplain hquery hwhole
  constructor
  · have hkind := (parseWith_summary Grammar.summary? hwhole).1
    rw [hlexemes, summaryOf_enclosed_kind summary?_selectionFrom hplain] at hkind
    exact hkind
  · have hbinds := parseWith_binds Grammar.summary? (selectionFrom columns text)
    rw [hlexemes, bindsOf_enclosed, ← parseWith_binds Grammar.summary? text] at hbinds
    exact hbinds

/-- Checks of arguments look at the placeholders of a query only. -/
theorem check_congr {query query' : Query} {params : List QueryParam}
    (h : query.binds = query'.binds) :
    BoundQuery.check ⟨query, params⟩ = BoundQuery.check ⟨query', params⟩ := by
  have hbindings : BoundQuery.bindings ⟨query, params⟩ = BoundQuery.bindings ⟨query', params⟩ := by
    simp only [BoundQuery.bindings, Query.bindTargets, h]
  have hmissing : BoundQuery.missing ⟨query, params⟩ = BoundQuery.missing ⟨query', params⟩ := by
    rw [BoundQuery.missing, hbindings, BoundQuery.missing]
  have hunused : BoundQuery.unused ⟨query, params⟩ = BoundQuery.unused ⟨query', params⟩ := by
    rw [BoundQuery.unused, hbindings, BoundQuery.unused]
  rw [BoundQuery.check, hmissing, hunused, BoundQuery.check]

/-- What is known of a first resolution without errors whose query is narrowed. -/
structure Narrows (s : Setting) (m : Schema.Method) (text : String) (first : Resolution)
    (n : Narrowing) (verifier : Verifier) (result : Result) (record : RecordRow) : Prop where
  declared : n.declared = text
  uses : s.verifier = some verifier
  verified : m.skipVerification = false
  query : first.query = { Query.parse text with resultInfo := some (verifier text) }
  accepted : (verifier text).error = none
  kind : (Query.parse text).kind = .select
  binder : first.binder = .read n.binder
  delivered : Yields (s.readBinder m first.query) n.binder 0
  reads : n.binder.result = some result
  isRecord : result.row.record? = some record
  columns : n.columns = record.mapping.usedColumns
  errors : (Query.parse (selectionFrom n.columns text)).errors = []
  narrowed : n.query = { Query.parse (selectionFrom n.columns text) with rewrittenFrom := some text }

section Verify

variable {s : Setting} {m : Schema.Method} {verifier : Verifier} {query : Query}
  (huses : s.verifier = some verifier) (hskip : m.skipVerification = false)
include huses hskip

theorem verify_accepted (h : (verifier query.original).error = none) :
    Yields (QueryMethod.verify s m query)
      { query with resultInfo := some (verifier query.original) } 0 := by
  unfold QueryMethod.verify
  simp only [huses, hskip, Bool.false_eq_true, if_false, h]
  exact yields_pure _

theorem verify_refused {reason : String} (h : (verifier query.original).error = some reason) :
    Yields (QueryMethod.verify s m query)
      { query with resultInfo := some (verifier query.original) } 1 := by
  unfold QueryMethod.verify
  simp only [huses, hskip, Bool.false_eq_true, if_false, h]
  exact (yields_error _).bind (f := fun _ => pure _) (yields_pure _)

end Verify

theorem yields_verify {s : Setting} {m : Schema.Method} {query query' : Query}
    {info : ResultInfo} (h : Yields (QueryMethod.verify s m query) query' 0)
    (hinfo : query'.resultInfo = some info) (hnone : query.resultInfo = none) :
    ∃ verifier, s.verifier = some verifier ∧ m.skipVerification = false ∧
      query' = { query with resultInfo := some (verifier query.original) } ∧
      (verifier query.original).error = none := by
  have hskipped : Yields (pure query : Report Query) query' 0 → False := by
    intro hpure
    obtain ⟨rfl, -⟩ := hpure.unique (yields_pure _)
    exact absurd hinfo (by simp [hnone])
  cases huses : s.verifier with
  | none =>
    simp only [QueryMethod.verify, huses] at h
    exact absurd h hskipped
  | some verifier =>
    cases hskip : m.skipVerification with
    | true =>
      simp only [QueryMethod.verify, huses, hskip, if_true] at h
      exact absurd h hskipped
    | false =>
      cases herror : (verifier query.original).error with
      | some reason => exact absurd (h.unique (verify_refused huses hskip herror)).2 (by simp)
      | none =>
        obtain ⟨rfl, -⟩ := h.unique (verify_accepted huses hskip herror)
        exact ⟨verifier, rfl, rfl, rfl, herror⟩

/-- The delivery of a query without errors is a read unless the query writes. -/
theorem yields_deliver {s : Setting} {m : Schema.Method} {query : Query} {r : Resolution}
    {b : ReadBinder} (h : Yields (QueryMethod.deliver s m query) r 0) (hread : r.binder = .read b) :
    r.query = query ∧ query.kind.isWrite = false ∧ Yields (s.readBinder m query) b 0 := by
  unfold QueryMethod.deliver at h
  cases hkind : query.kind.isWrite with
  | true =>
    simp only [hkind, if_true] at h
    obtain ⟨w, -, h⟩ := h.of_bind (steady_writeBinder ..) fun _ => steady_pure _
    obtain ⟨rfl, -⟩ := h.unique (yields_pure _)
    exact absurd hread nofun
  | false =>
    simp only [hkind, Bool.false_eq_true, if_false] at h
    obtain ⟨b', hb', h⟩ := h.of_bind (steady_readBinder ..) fun _ => steady_pure _
    obtain ⟨rfl, -⟩ := h.unique (yields_pure _)
    obtain rfl := MethodBinder.read.inj hread
    exact ⟨rfl, rfl, hb'⟩

theorem rewritten?_cases {s : Setting} {r : Resolution} {narrowed : Query}
    (h : QueryMethod.rewritten? s r = some narrowed) :
    ∃ result, r.binder.result? = some result ∧ pruneWith Grammar.summary? r.query result.row ≠ r.query ∧
      narrowed = pruneWith Grammar.summary? r.query result.row := by
  unfold QueryMethod.rewritten? at h
  cases hresult : r.binder.result? with
  | none => simp [hresult] at h
  | some result =>
    simp only [hresult, Option.bind_eq_bind, Option.bind_some] at h
    cases hrewriters : s.rewriters with
    | nil => simp [hrewriters, applyAll_nil] at h
    | cons rewriter rest =>
      rw [hrewriters, applyAll_cons] at h
      by_cases hsame : (pruneWith Grammar.summary? r.query result.row).original = r.query.original
      · simp [hsame] at h
      · simp only [if_neg hsame, Option.some.injEq] at h
        exact ⟨result, rfl, fun he => hsame (congrArg Query.original he), h.symm⟩

theorem exists_narrows {s : Setting} {m : Schema.Method} {text : String} {first : Resolution}
    {narrowed : Query} (hsql : m.sql = some text) (herrors : (Query.parse text).errors = [])
    (hfirst : Yields (QueryMethod.resolveQuery s m (Query.parse text)) first 0)
    (hnarrowed : QueryMethod.rewritten? s first = some narrowed) :
    ∃ n verifier result record, narrowing? s m = some n ∧ n.query = narrowed ∧
      Narrows s m text first n verifier result record := by
  obtain ⟨result, hresult, hne, hquery⟩ := rewritten?_cases hnarrowed
  obtain ⟨columns, hkept, hpruned, heq⟩ := pruneWith_cases hne
  obtain ⟨record, info, hrecord, hinfo, haccepted, -, -, hcolumns⟩ := keptColumns?_cases hkept
  obtain ⟨b, hread, hb⟩ : ∃ b, first.binder = .read b ∧ b.result = some result := by
    cases hbinder : first.binder with
    | read b => exact ⟨b, rfl, by simpa [hbinder, MethodBinder.result?] using hresult⟩
    | write b => simp [hbinder, MethodBinder.result?] at hresult
  rw [QueryMethod.resolveQuery_eq] at hfirst
  obtain ⟨verified, hverify, hdeliver⟩ := hfirst.of_bind (QueryMethod.steady_verify ..) fun _ =>
    QueryMethod.steady_deliver ..
  obtain ⟨rfl, hkind, hbinder⟩ := yields_deliver hdeliver hread
  obtain ⟨verifier, hverifier, hskip, hverified, hnone⟩ := yields_verify hverify hinfo rfl
  have horiginal : first.query.original = text := by rw [hverified]; rfl
  rw [horiginal] at hpruned heq
  have hvalue : ((QueryMethod.resolveQuery s m (Query.parse text)).run {}).1 = first := by
    rw [QueryMethod.resolveQuery_eq]
    exact hfirst.value {}
  have hselect : (Query.parse text).kind = .select := by
    have hsame : first.query.kind = (Query.parse text).kind := by rw [hverified]
    have hknown := ((parseWith_errors_eq_nil_iff Grammar.summary?).1 herrors)
    have hsummary := (parseWith_summary Grammar.summary? hknown.1).1
    rw [hsame] at hkind
    have hunknown : (Query.parse text).kind ≠ .unknown := by
      rw [Query.parse, hsummary]
      exact hknown.2
    revert hkind hunknown
    cases (Query.parse text).kind <;> simp [StatementKind.isWrite]
  refine ⟨⟨text, b, columns, narrowed⟩, verifier, result, record, ?_, rfl, ?_⟩
  · simp [narrowing?, hsql, hvalue, hnarrowed, hread, hb, hkept]
  · exact
      { declared := rfl, uses := hverifier, verified := hskip, query := hverified, accepted := hnone
        kind := hselect, binder := hread, delivered := hbinder, reads := hb, isRecord := hrecord
        columns := hcolumns, errors := hpruned, narrowed := hquery.trans heq }

section Second

variable {s : Setting} {m : Schema.Method} {text : String} {first : Resolution} {n : Narrowing}
  {verifier : Verifier} {result : Result} {record : RecordRow}
  (hn : Narrows s m text first n verifier result record)
  (hverifier : verifier.Encloses) (hnames : PlainNames (verifier text).columnNames)
  (htext : (Query.parse text).errors = [])

include hn

theorem Narrows.usableInfo : Row.usableInfo first.query = some (verifier text) := by
  rw [hn.query]
  simp [Row.usableInfo, hn.accepted]

theorem Narrows.mem_columns {c : String} (hc : c ∈ n.columns) :
    c ∈ (verifier text).columnNames := by
  obtain ⟨plan, hplan, -⟩ := plan_of_readBinder hn.delivered
  obtain ⟨t, r, hr, hrow⟩ := Plan.resolve_of_run hplan hn.reads
  rw [hn.columns] at hc
  exact usedColumns_of_result hr (by rw [hrow]; exact hn.isRecord) hn.usableInfo hc

include hnames

theorem Narrows.unquoted : ∀ c ∈ n.columns, '`' ∉ c.toList :=
  fun _ hc => hnames.unquoted _ (hn.mem_columns hc)

include hverifier htext

/-- The verifier accepts the narrowed query unless it has a terminator or selects nothing. -/
theorem Narrows.accepted_iff :
    (verifier (selectionFrom n.columns text)).error = none ↔
      ¬Terminated text ∧ n.columns ≠ [] := by
  constructor
  · intro h
    refine ⟨fun hterm => ?_, fun hnil => ?_⟩
    · exact hverifier.terminator _ text htext (hn.unquoted hnames) hterm h
    · rw [hnil] at h
      exact hverifier.projection text h
  · rintro ⟨hterm, hcolumns⟩
    exact (hverifier.selection n.columns text hn.accepted htext hn.kind hterm hcolumns
      (fun _ => hn.mem_columns) hnames hn.errors).1

/-- The second resolution reports no errors exactly when the narrowed query resolves. -/
theorem Narrows.resolveQuery :
    ∃ second k, Yields (QueryMethod.resolveQuery s m n.query) second k ∧ (k = 0 ↔ n.Resolves) ∧
      (k = 0 → second.query.binds = (Query.parse text).binds ∧
        ∃ b, second.binder = .read b ∧ b.result.isSome) := by
  have hunquoted := hn.unquoted hnames
  obtain ⟨hkind, hbinds⟩ := parse_selectionFrom hunquoted htext hn.errors
  have haccepted := hn.accepted_iff hverifier hnames htext
  have horiginal : n.query.original = selectionFrom n.columns text := by rw [hn.narrowed]; rfl
  rw [← horiginal] at haccepted
  rw [QueryMethod.resolveQuery_eq]
  let query : Query := { n.query with resultInfo := some (verifier n.query.original) }
  cases herror : (verifier n.query.original).error with
  | some reason =>
    obtain ⟨second, k, hsecond⟩ := (QueryMethod.steady_deliver s m query).yields
    refine ⟨second, 1 + k, (verify_refused hn.uses hn.verified herror).bind hsecond,
      ⟨fun h => by omega, fun h => ?_⟩, fun h => by omega⟩
    have hnone := haccepted.2 ⟨hn.declared ▸ h.unterminated, h.projection⟩
    simp [herror] at hnone
  | none =>
    obtain ⟨hterm, hcolumns⟩ := haccepted.1 herror
    obtain ⟨-, hreported⟩ := hverifier.selection n.columns text hn.accepted htext hn.kind hterm
      hcolumns (fun _ => hn.mem_columns) hnames hn.errors
    rw [← horiginal] at hreported
    have hinfo : Row.usableInfo query = some (verifier n.query.original) := by
      simp [query, Row.usableInfo, herror]
    obtain ⟨plan, hplan, hfollow⟩ := plan_of_readBinder hn.delivered
    obtain ⟨b, k, hb, hsome, hk⟩ := Plan.run_narrowed hn.usableInfo hinfo
      (by rw [hreported, hn.columns]) hplan hn.reads hn.isRecord
    have hdeliver : Yields (QueryMethod.deliver s m query) ⟨query, .read b⟩ k := by
      have hselect : query.kind = .select := by simp [query, hn.narrowed, hkind]
      unfold QueryMethod.deliver
      simp only [hselect, StatementKind.isWrite, Bool.false_eq_true, if_false]
      exact (hfollow query b k hb).bind (f := fun b => pure (⟨query, .read b⟩ : Resolution))
        (yields_pure _)
    refine ⟨⟨query, .read b⟩, k, (verify_accepted hn.uses hn.verified herror).andThen hdeliver, ?_,
      fun _ => ⟨?_, b, rfl, hsome⟩⟩
    · rw [hk]
      exact ⟨fun h => ⟨hn.declared ▸ hterm, hcolumns, h⟩, fun h => h.observing⟩
    · have hsame : query.binds = n.query.binds := rfl
      rw [hsame, hn.narrowed]
      exact hbinds

end Second

/-- The setting without the narrowing of queries. -/
def Setting.wide (s : Setting) : Setting := { s with rewriters := [] }

theorem rewritten?_wide (s : Setting) (r : Resolution) :
    QueryMethod.rewritten? s.wide r = none := by
  unfold QueryMethod.rewritten?
  cases r.binder.result? with
  | none => rfl
  | some result => simp [Setting.wide, applyAll_nil]

/-- What holds of a method that resolves without the narrowing. -/
theorem resolved_wide {s : Setting} {m : Schema.Method} {text : String} {q : QueryMethod}
    (h : Yields (QueryMethod.resolveText s.wide m text) (some q) 0) :
    ∃ params first, (Query.parse text).errors = [] ∧
      Yields (m.params.mapM (QueryParam.resolve s.store)) params 0 ∧
      Yields (QueryMethod.resolveQuery s m (Query.parse text)) first 0 ∧
      Yields (QueryMethod.finish m params first) (some q) 0 := by
  have herrors := QueryMethod.errors_of_resolveText h
  rw [QueryMethod.resolveText_of_errors herrors] at h
  obtain ⟨params, hparams, h⟩ := h.of_bind (QueryMethod.steady_params ..) fun _ =>
    (QueryMethod.steady_resolveNarrowed ..).bind fun _ => QueryMethod.steady_finish ..
  obtain ⟨first, hfirst, h⟩ := h.of_bind (QueryMethod.steady_resolveNarrowed ..) fun _ =>
    QueryMethod.steady_finish ..
  obtain ⟨first', n, hfirst'⟩ := (QueryMethod.steady_resolveQuery s m (Query.parse text)).yields
  obtain ⟨rfl, rfl⟩ := hfirst.unique
    (QueryMethod.yields_resolveNarrowed_none (s := s.wide) hfirst' (rewritten?_wide s first'))
  exact ⟨params, first, herrors, hparams, hfirst', h⟩

theorem yields_checkBinder {m : Schema.Method} {r : Resolution} {b : ReadBinder}
    (hb : r.binder = .read b) (hsome : b.result.isSome) :
    Yields (QueryMethod.checkBinder m r) () 0 := by
  obtain ⟨result, hresult⟩ := Option.isSome_iff_exists.1 hsome
  unfold QueryMethod.checkBinder
  simp only [hb, hresult]
  split
  · exact yields_warn _ _
  · exact yields_pure _

/-- The checks that end a resolution pass for a read with a result and the same placeholders. -/
theorem yields_finish {m : Schema.Method} {params : List QueryParam} {first second : Resolution}
    {q : QueryMethod} {b : ReadBinder} (h : Yields (QueryMethod.finish m params first) (some q) 0)
    (hbinds : second.query.binds = first.query.binds) (hb : second.binder = .read b)
    (hsome : b.result.isSome) :
    ∃ q', Yields (QueryMethod.finish m params second) (some q') 0 := by
  obtain ⟨u, -, h⟩ := h.of_bind (QueryMethod.steady_checkBinder ..) fun _ =>
    (steady_check _).bind fun _ => steady_pure _
  obtain ⟨v, hcheck, -⟩ := h.of_bind (steady_check _) fun _ => steady_pure _
  rw [← check_congr hbinds] at hcheck
  exact ⟨_, (yields_checkBinder hb hsome).andThen (hcheck.andThen (yields_pure _))⟩

/-- A method that resolves without the narrowing resolves with it exactly when its query is not
narrowed or the narrowed one resolves. -/
theorem resolve_isSome_iff {s : Setting} {m : Schema.Method} {l : Logger}
    (hverifier : ∀ verifier, s.verifier = some verifier → verifier.Encloses)
    (hnames : ∀ verifier text, s.verifier = some verifier → m.sql = some text →
      PlainNames (verifier text).columnNames)
    (h : ((QueryMethod.resolve s.wide m).run l).1.isSome) :
    ((QueryMethod.resolve s m).run l).1.isSome ↔
      ∀ n, narrowing? s m = some n → n.Resolves := by
  obtain ⟨text, hsql⟩ : ∃ text, m.sql = some text := by
    cases hsql : m.sql with
    | none => simp [resolve_of_missing hsql] at h
    | some text => exact ⟨text, rfl⟩
  obtain ⟨q, hq⟩ := (QueryMethod.resolve_isSome_iff_yields hsql l).1 h
  obtain ⟨params, first, herrors, hparams, hfirst, hfinish⟩ := resolved_wide hq
  rw [QueryMethod.resolve_isSome_iff_yields hsql, QueryMethod.resolveText_of_errors herrors]
  cases hnarrowed : QueryMethod.rewritten? s first with
  | none =>
    have hkept := QueryMethod.yields_resolveNarrowed_none hfirst hnarrowed
    have hnone : narrowing? s m = none := by
      simp [narrowing?, hsql, hfirst.value, hnarrowed]
    exact ⟨fun _ n hn => absurd (hnone.symm.trans hn) nofun,
      fun _ => ⟨q, hparams.andThen (hkept.andThen hfinish)⟩⟩
  | some narrowed =>
    obtain ⟨n, verifier, result, record, hn, rfl, hfacts⟩ :=
      exists_narrows hsql herrors hfirst hnarrowed
    obtain ⟨second, k, hsecond, hk, hdone⟩ := hfacts.resolveQuery
      (hverifier verifier hfacts.uses) (hnames verifier text hfacts.uses hsql) herrors
    have hkept := QueryMethod.yields_resolveNarrowed_some hfirst hnarrowed hsecond
    constructor
    · rintro ⟨q', hq'⟩ n' hn'
      obtain rfl := Option.some.inj (hn.symm.trans hn')
      obtain ⟨ps, -, hq'⟩ := hq'.of_bind (QueryMethod.steady_params ..) fun _ =>
        (QueryMethod.steady_resolveNarrowed ..).bind fun _ => QueryMethod.steady_finish ..
      obtain ⟨r, hr, -⟩ := hq'.of_bind (QueryMethod.steady_resolveNarrowed ..) fun _ =>
        QueryMethod.steady_finish ..
      exact hk.1 (hkept.unique hr).2
    · intro hresolves
      obtain rfl := hk.2 (hresolves n hn)
      obtain ⟨hbinds, b, hb, hsome⟩ := hdone rfl
      have hsame : second.query.binds = first.query.binds := by
        rw [hbinds, hfacts.query]
        rfl
      obtain ⟨q', hq'⟩ := yields_finish hfinish hsame hb hsome
      exact ⟨q', hparams.andThen (hkept.andThen hq')⟩

/-- A verifier that knows one query, which ends with a terminator. -/
def terminatedVerifier : Verifier := fun text =>
  if text = "SELECT * FROM user;" then { columns := [⟨"id", none⟩, ⟨"name", none⟩, ⟨"age", none⟩] }
  else { error := some "near \";\": syntax error" }

theorem error_terminatedVerifier (columns : List String) (text : String) :
    (terminatedVerifier (selectionFrom columns text)).error ≠ none := by
  have hne : selectionFrom columns text ≠ "SELECT * FROM user;" := by
    intro h
    have hlast := congrArg (fun t => t.toList.getLast?) h
    simp only [selectionFrom, String.toList_append] at hlast
    rw [show ")".toList = [')'] by decide, List.getLast?_concat] at hlast
    exact absurd hlast (by decide)
  simp [terminatedVerifier, hne]

theorem encloses_terminatedVerifier : terminatedVerifier.Encloses where
  selection columns text haccepted _ _ hterm := by
    have htext : text = "SELECT * FROM user;" := by
      by_contra hne
      simp [terminatedVerifier, hne] at haccepted
    subst htext
    exact absurd ⟨⟨.punct, [';'], none⟩, by decide +kernel, rfl, .inl rfl⟩ hterm
  terminator columns text _ _ _ := error_terminatedVerifier columns text
  projection text := error_terminatedVerifier [] text

def narrowingSetting : Setting where
  store :=
    { decls := { records := [{ name := "UserName", fields := [
        { name := "id", type := .mk "i64" [] }, { name := "name", type := .mk "String" [] }] }] }
      maxHops := 2
      custom := [] }
  providers := Providers.builtIn
  rewriters := [.removeUnusedColumns]
  verifier := some terminatedVerifier

def terminatedMethod : Schema.Method where
  name := "load"
  sql := some "SELECT * FROM user;"
  returns := .mk "Vec" [.mk "UserName" []]

/-- The method of a query with a terminator is lost when it is narrowed. -/
theorem resolve_terminatedMethod :
    ((QueryMethod.resolve narrowingSetting.wide terminatedMethod).run {}).1.isSome ∧
      ¬((QueryMethod.resolve narrowingSetting terminatedMethod).run {}).1.isSome := by
  have hwide : ((QueryMethod.resolve narrowingSetting.wide terminatedMethod).run {}).1.isSome := by
    decide +kernel
  have hverifier : ∀ verifier, narrowingSetting.verifier = some verifier → verifier.Encloses := by
    intro verifier h
    obtain rfl := Option.some.inj h
    exact encloses_terminatedVerifier
  have hnames : ∀ verifier text, narrowingSetting.verifier = some verifier →
      terminatedMethod.sql = some text → PlainNames (verifier text).columnNames := by
    intro verifier text h htext
    obtain rfl := Option.some.inj h
    obtain rfl := Option.some.inj htext
    constructor <;> decide +kernel
  refine ⟨hwide, fun h => ?_⟩
  have hresolves := (resolve_isSome_iff hverifier hnames hwide).1 h
  have hdeclared : (narrowing? narrowingSetting terminatedMethod).map Narrowing.declared =
      some "SELECT * FROM user;" := by
    decide +kernel
  obtain ⟨n, hn, htext⟩ := Option.map_eq_some_iff.1 hdeclared
  refine (hresolves n hn).unterminated ?_
  rw [htext]
  exact ⟨⟨.punct, [';'], none⟩, by decide +kernel, rfl, .inl rfl⟩

end DataAccess.Compile
