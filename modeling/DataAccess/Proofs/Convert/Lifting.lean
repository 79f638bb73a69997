import DataAccess.Proofs.Convert.Storage
import Mathlib.Data.List.Find

/-!
Optional values go the way of plain ones. When no declared converter has an optional type, the single
steps fall into those between plain types and those between optional ones, and the second are the
lifts of the first in the same order. A search never leaves the part that it ends in, so the search
for an optional type runs through the lifts of the chains that the search for the plain type runs
through.
-/

set_option autoImplicit false

namespace DataAccess.TypeExpr

theorem nullable_of_plain {t : TypeExpr} (h : t.isOption = false) : t.nullable = optionOf t := by
  rw [nullable, h]
  rfl

@[simp] theorem isOption_nullable (t : TypeExpr) : t.nullable.isOption = true := by
  cases h : t.isOption with
  | true => rw [nullable, if_pos h, h]
  | false => rw [nullable_of_plain h]; rfl

theorem nullable_nullable (t : TypeExpr) : t.nullable.nullable = t.nullable :=
  if_pos (isOption_nullable t)

theorem nullable_inj {t u : TypeExpr} (ht : t.isOption = false) (hu : u.isOption = false) :
    t.nullable = u.nullable ↔ t = u := by
  rw [nullable_of_plain ht, nullable_of_plain hu]
  simp [optionOf]

end DataAccess.TypeExpr

namespace DataAccess.Convert

namespace Converter

/-- The same conversion between the optional forms of the types. -/
def lifted : Converter → Converter
  | identity t => identity t.nullable
  | boolToInt => optionBoolToInt
  | intToBool => optionIntToBool
  | chain first second => chain first.lifted second.lifted
  | c => nullSafe c

/-- The single steps, in the order in which they are taken. -/
def steps : Converter → List Converter
  | chain first second => first.steps ++ second.steps
  | c => [c]

/-- The declared converters that are called, in the order of the calls. -/
def methods : Converter → List Schema.CustomConverter
  | custom m => [m]
  | nullSafe inner => inner.methods
  | chain first second => first.methods ++ second.methods
  | _ => []

/-- A single step and its lift; the pairs of booleans and integers are lifts by themselves. -/
inductive StepLift : Converter → Converter → Prop
  | custom (m : Schema.CustomConverter) : StepLift (.custom m) (.nullSafe (.custom m))
  | boolToInt : StepLift .boolToInt .optionBoolToInt
  | intToBool : StepLift .intToBool .optionIntToBool

/-- One chain is the other between the optional forms of the types, step by step. -/
structure ChainLift (plain optional : Converter) : Prop where
  steps : List.Forall₂ StepLift plain.steps optional.steps
  methods : optional.methods = plain.methods
  hops : optional.hops = plain.hops
  source : optional.source = .optionOf plain.source
  target : optional.target = .optionOf plain.target

@[simp] theorem source_lifted (c : Converter) : c.lifted.source = c.source.nullable := by
  induction c with
  | chain first second ih _ => exact ih
  | _ => rfl

@[simp] theorem target_lifted (c : Converter) : c.lifted.target = c.target.nullable := by
  induction c with
  | chain first second _ ih => exact ih
  | _ => rfl

theorem hops_lifted (c : Converter) : c.lifted.hops = c.hops := by
  induction c with
  | chain first second ihfirst ihsecond => simp [lifted, hops, ihfirst, ihsecond]
  | _ => rfl

theorem methods_lifted (c : Converter) : c.lifted.methods = c.methods := by
  induction c with
  | chain first second ihfirst ihsecond => simp [lifted, methods, ihfirst, ihsecond]
  | _ => rfl

theorem steps_lifted (c : Converter) : c.lifted.steps = c.steps.map lifted := by
  induction c with
  | chain first second ihfirst ihsecond => simp [lifted, steps, ihfirst, ihsecond]
  | _ => rfl

end Converter

namespace ColumnType

def asOptional (column : ColumnType) : ColumnType := ⟨column.form, true⟩

theorem type_asOptional (column : ColumnType) : column.asOptional.type = column.type.nullable := by
  cases h : column.optional <;> simp [type, asOptional, h, TypeExpr.nullable_nullable]

theorem mem_all {column : ColumnType} : column ∈ all ↔ column.form ∈ ColumnForm.all := by
  obtain ⟨form, optional⟩ := column
  cases optional <;> simp [all]

theorem isOption_type (column : ColumnType) : column.type.isOption = column.optional := by
  obtain ⟨form, optional⟩ := column
  cases optional with
  | true => exact TypeExpr.isOption_nullable _
  | false =>
    cases form with
    | scalar p => cases p <;> rfl
    | string | byteVec | buffer => rfl

/-- The optional form of a type is built in exactly when the type is. -/
theorem ofType?_nullable (t : TypeExpr) : ofType? t.nullable = (ofType? t).map asOptional := by
  cases h : ofType? t with
  | some column =>
    have hmem : column ∈ all := List.mem_of_find?_eq_some h
    have hform : column.form ∈ ColumnForm.all := mem_all.1 hmem
    rw [← type_of_ofType? h, ← type_asOptional]
    exact ofType?_type column.asOptional (mem_all.2 hform)
  | none =>
    rw [Option.map_none, Option.eq_none_iff_forall_ne_some]
    intro column hcolumn
    have htype := type_of_ofType? hcolumn
    cases ht : t.isOption with
    | true =>
      rw [TypeExpr.nullable, if_pos ht, h] at hcolumn
      cases hcolumn
    | false =>
      have hoptional : column.optional = true := by
        rw [← isOption_type, htype, TypeExpr.isOption_nullable]
      have hmem : column.form ∈ ColumnForm.all := mem_all.1 (List.mem_of_find?_eq_some hcolumn)
      rw [type, if_pos hoptional] at htype
      have hplain : (⟨column.form, false⟩ : ColumnType).type = t :=
        (TypeExpr.nullable_inj (isOption_type ⟨column.form, false⟩) ht).1 htype
      have hfound := ofType?_type ⟨column.form, false⟩ (mem_all.2 hmem)
      rw [hplain, h] at hfound
      cases hfound

end ColumnType

section Parts

variable {edges : List Converter} {accepts : TypeExpr → Bool} {inside : TypeExpr → Bool}

theorem extend_cons (visited : List TypeExpr) (c : Converter) (rest : List Converter) :
    extend edges visited (c :: rest) =
      (edges.filter fun e => e.source = c.target && !visited.contains e.target).map (c.chain ·) ++
        extend edges visited rest := rfl

theorem mem_extend {visited : List TypeExpr} {frontier : List Converter} {c : Converter}
    (hc : c ∈ extend edges visited frontier) :
    ∃ b ∈ frontier, ∃ e ∈ edges, e.source = b.target ∧ c.target = e.target := by
  simp only [extend, List.mem_flatMap, List.mem_map, List.mem_filter, Bool.and_eq_true,
    decide_eq_true_eq] at hc
  obtain ⟨b, hb, e, ⟨he, hsource, -⟩, rfl⟩ := hc
  exact ⟨b, hb, e, he, hsource, rfl⟩

/-- Steps that do not leave a part of the types lead on inside it exactly from the chains in it. -/
theorem filter_extend (hclosed : ∀ e ∈ edges, inside e.source = inside e.target)
    (visited : List TypeExpr) (frontier : List Converter) :
    (extend edges visited frontier).filter (inside ·.target) =
      extend (edges.filter (inside ·.source)) (visited.filter inside)
        (frontier.filter (inside ·.target)) := by
  induction frontier with
  | nil => rfl
  | cons c rest ih =>
    rw [extend_cons, List.filter_append, ih, List.filter_map, List.filter_filter]
    cases hc : inside c.target with
    | true =>
      rw [List.filter_cons_of_pos (by exact hc), extend_cons, List.filter_filter]
      congr 2
      refine List.filter_congr fun e he => ?_
      rw [Bool.eq_iff_iff]
      have hsame := hclosed e he
      simp only [Function.comp_apply, Converter.target, Bool.and_eq_true, decide_eq_true_eq,
        Bool.not_eq_true', List.contains_eq_mem, decide_eq_false_iff_not, List.mem_filter]
      grind
    | false =>
      rw [List.filter_cons_of_neg (by simp [hc])]
      rw [List.filter_eq_nil_iff.2 fun e he => ?_, List.map_nil, List.nil_append]
      have hsame := hclosed e he
      simp only [Function.comp_apply, Converter.target, Bool.and_eq_true, decide_eq_true_eq]
      grind

/-- A search needs only the steps in one part of the types, when a chain outside of it rules out that
anything outside is accepted. -/
theorem searchFrom_filter (hclosed : ∀ e ∈ edges, inside e.source = inside e.target) (rounds : Nat)
    (visited : List TypeExpr) {frontier : List Converter}
    (hfrontier : ∀ c ∈ frontier, inside c.target = false → ∀ t, accepts t = true → inside t = true) :
    searchFrom edges accepts rounds visited frontier =
      searchFrom (edges.filter (inside ·.source)) accepts rounds (visited.filter inside)
        (frontier.filter (inside ·.target)) := by
  induction rounds generalizing visited frontier with
  | zero => rfl
  | succ rounds ih =>
    have hfind : (frontier.filter (inside ·.target)).find? (accepts ·.target) =
        frontier.find? (accepts ·.target) := by
      rw [List.find?_filter]
      refine List.find?_congr fun c hc => ?_
      cases htarget : inside c.target with
      | true => simp
      | false =>
        have hnot : accepts c.target ≠ true := fun haccepted =>
          absurd (hfrontier c hc htarget _ haccepted) (by simp [htarget])
        simp [hnot]
    cases hc : frontier.find? (accepts ·.target) with
    | some c => rw [searchFrom, searchFrom, hfind, hc]
    | none =>
      have htargets : (frontier.filter (inside ·.target)).map Converter.target =
          (frontier.map Converter.target).filter inside := by
        rw [List.filter_map]
        rfl
      rw [searchFrom_succ hc, searchFrom_succ (hfind.trans hc), htargets, ← List.filter_append,
        ← filter_extend hclosed]
      refine ih _ fun c hc houtside => ?_
      obtain ⟨b, hb, e, he, hsource, htarget⟩ := mem_extend hc
      exact hfrontier b hb (by rw [← hsource, hclosed e he, ← htarget, houtside])

end Parts

section Lifts

variable {edges : List Converter} {accepts accepts' : TypeExpr → Bool}

theorem contains_map_nullable {visited : List TypeExpr} {t : TypeExpr}
    (hvisited : ∀ u ∈ visited, u.isOption = false) (ht : t.isOption = false) :
    (visited.map TypeExpr.nullable).contains t.nullable = visited.contains t := by
  rw [Bool.eq_iff_iff]
  simp only [List.contains_eq_mem, decide_eq_true_eq, List.mem_map]
  constructor
  · rintro ⟨u, hu, heq⟩
    rwa [← (TypeExpr.nullable_inj (hvisited u hu) ht).1 heq]
  · exact fun h => ⟨t, h, rfl⟩

variable (hplain : ∀ e ∈ edges, e.source.isOption = false ∧ e.target.isOption = false)

include hplain

theorem extend_map_lifted {visited : List TypeExpr} {frontier : List Converter}
    (hvisited : ∀ u ∈ visited, u.isOption = false)
    (hfrontier : ∀ c ∈ frontier, c.target.isOption = false) :
    extend (edges.map Converter.lifted) (visited.map TypeExpr.nullable)
        (frontier.map Converter.lifted) =
      (extend edges visited frontier).map Converter.lifted := by
  induction frontier with
  | nil => rfl
  | cons c rest ih =>
    have hc := hfrontier c (List.mem_cons_self ..)
    rw [List.map_cons, extend_cons, extend_cons, List.map_append,
      ih fun c hc => hfrontier c (List.mem_cons_of_mem _ hc), List.filter_map, List.map_map,
      List.map_map]
    congr 2
    refine List.filter_congr fun e he => ?_
    obtain ⟨hsource, htarget⟩ := hplain e he
    simp only [Function.comp_apply, Converter.source_lifted, Converter.target_lifted,
      TypeExpr.nullable_inj hsource hc, contains_map_nullable hvisited htarget]

/-- The search through the lifts of steps between plain types finds the lift of what the search
through the steps finds. -/
theorem searchFrom_map_lifted
    (haccepts : ∀ t : TypeExpr, t.isOption = false → accepts' t.nullable = accepts t) (rounds : Nat)
    {visited : List TypeExpr} {frontier : List Converter}
    (hvisited : ∀ u ∈ visited, u.isOption = false)
    (hfrontier : ∀ c ∈ frontier, c.target.isOption = false) :
    searchFrom (edges.map Converter.lifted) accepts' rounds (visited.map TypeExpr.nullable)
        (frontier.map Converter.lifted) =
      (searchFrom edges accepts rounds visited frontier).map Converter.lifted := by
  induction rounds generalizing visited frontier with
  | zero => rfl
  | succ rounds ih =>
    have hfind : (frontier.map Converter.lifted).find? (accepts' ·.target) =
        (frontier.find? (accepts ·.target)).map Converter.lifted := by
      rw [List.find?_map]
      refine congrArg (Option.map _) (List.find?_congr fun c hc => ?_)
      rw [Function.comp_apply, Converter.target_lifted, haccepts _ (hfrontier c hc)]
    cases hc : frontier.find? (accepts ·.target) with
    | some c =>
      rw [hc] at hfind
      rw [searchFrom, searchFrom, hfind, hc]
      rfl
    | none =>
      rw [hc] at hfind
      have hnext : ∀ u ∈ frontier.map Converter.target ++ visited, u.isOption = false := by
        intro u hu
        rcases List.mem_append.1 hu with hu | hu
        · obtain ⟨c, hc, rfl⟩ := List.mem_map.1 hu
          exact hfrontier c hc
        · exact hvisited u hu
      have htargets : (frontier.map Converter.lifted).map Converter.target =
          (frontier.map Converter.target).map TypeExpr.nullable := by
        rw [List.map_map, List.map_map]
        exact List.map_congr_left fun c _ => c.target_lifted
      rw [searchFrom_succ hfind, searchFrom_succ hc, htargets, ← List.map_append,
        extend_map_lifted hplain hnext hfrontier]
      refine ih hnext fun c hc => ?_
      obtain ⟨-, -, e, he, -, htarget⟩ := mem_extend hc
      rw [htarget]
      exact (hplain e he).2

end Lifts

namespace Store

variable {s : Store} {t : TypeExpr}

/-- No declared converter has an optional type. -/
def Plain (s : Store) : Prop :=
  ∀ m ∈ s.custom, m.source.isOption = false ∧ m.target.isOption = false

/-- The single steps between plain types. -/
def plainEdges (s : Store) : List Converter :=
  s.custom.map Converter.custom ++ [.boolToInt, .intToBool]

theorem lift_custom (h : s.Plain) :
    (s.custom.map Converter.custom).filterMap Converter.lift? =
      (s.custom.map Converter.custom).map Converter.lifted := by
  rw [List.filterMap_map, List.map_map, ← List.filterMap_eq_map]
  refine List.filterMap_congr fun m hm => ?_
  obtain ⟨hsource, htarget⟩ := h m hm
  simp [Converter.lift?, Converter.source, Converter.target, hsource, htarget, Converter.lifted]

theorem plainEdges_plain (h : s.Plain) :
    ∀ e ∈ s.plainEdges, e.source.isOption = false ∧ e.target.isOption = false := by
  intro e he
  simp only [plainEdges, List.mem_append, List.mem_map, List.mem_cons, List.not_mem_nil,
    or_false] at he
  rcases he with ⟨m, hm, rfl⟩ | rfl | rfl
  · exact h m hm
  · decide
  · decide

theorem edges_eq (h : s.Plain) :
    s.edges = s.custom.map Converter.custom ++ (s.custom.map Converter.custom).map Converter.lifted ++
      ([.boolToInt, .intToBool] ++ [Converter.boolToInt, .intToBool].map Converter.lifted) := by
  rw [edges, lift_custom h]
  rfl

theorem filter_plain (h : s.Plain) : s.edges.filter (!·.source.isOption) = s.plainEdges := by
  have hdeclared : (s.custom.map Converter.custom).filter (!·.source.isOption) =
      s.custom.map Converter.custom :=
    List.filter_eq_self.2 fun e he => by
      simp [(plainEdges_plain h e (List.mem_append_left _ he)).1]
  have hlifted : ∀ l : List Converter, (l.map Converter.lifted).filter (!·.source.isOption) = [] :=
    fun l => by simp
  rw [edges_eq h, List.filter_append, List.filter_append, List.filter_append, hdeclared, hlifted,
    hlifted, List.append_nil, List.append_nil]
  rfl

theorem filter_optional (h : s.Plain) :
    s.edges.filter (·.source.isOption) = s.plainEdges.map Converter.lifted := by
  have hdeclared : (s.custom.map Converter.custom).filter (·.source.isOption) = [] :=
    List.filter_eq_nil_iff.2 fun e he => by
      simpa using (plainEdges_plain h e (List.mem_append_left _ he)).1
  have hlifted : ∀ l : List Converter, (l.map Converter.lifted).filter (·.source.isOption) =
      l.map Converter.lifted := fun l => by simp [List.filter_map, Function.comp_def]
  rw [edges_eq h, List.filter_append, List.filter_append, List.filter_append, hdeclared, hlifted,
    hlifted, plainEdges, List.map_append]
  rfl

theorem isOption_source_eq_target (h : s.Plain) :
    ∀ e ∈ s.edges, e.source.isOption = e.target.isOption := by
  intro e he
  have hplain := plainEdges_plain h
  have hpart : e ∈ s.plainEdges ∨ e ∈ s.plainEdges.map Converter.lifted := by
    rw [← filter_optional h, ← filter_plain h, List.mem_filter, List.mem_filter]
    cases e.source.isOption <;> simp [he]
  rcases hpart with he | he
  · rw [(hplain e he).1, (hplain e he).2]
  · obtain ⟨b, -, rfl⟩ := List.mem_map.1 he
    simp

/-- What leads from the sources to an accepted type, searched for among given steps. -/
def searchAmong (edges : List Converter) (rounds : Nat) (sources : List TypeExpr)
    (accepts : TypeExpr → Bool) : Option Converter :=
  searchFrom edges accepts rounds sources
    (edges.filter fun e => sources.contains e.source && !sources.contains e.target)

theorem search_eq_searchAmong (sources : List TypeExpr) (accepts : TypeExpr → Bool) :
    s.search sources accepts = searchAmong s.edges (max s.maxHops 1) sources accepts := rfl

variable {edges : List Converter} {accepts accepts' : TypeExpr → Bool}
  {sources sources' : List TypeExpr} {rounds : Nat}

theorem searchAmong_filter (inside : TypeExpr → Bool)
    (hclosed : ∀ e ∈ edges, inside e.source = inside e.target)
    (hsources : ∀ u ∈ sources, inside u = false → ∀ t, accepts t = true → inside t = true) :
    searchAmong edges rounds sources accepts =
      searchAmong (edges.filter (inside ·.source)) rounds (sources.filter inside) accepts := by
  rw [searchAmong, searchFrom_filter hclosed, searchAmong]
  · congr 1
    rw [List.filter_filter, List.filter_filter]
    refine List.filter_congr fun e he => ?_
    have hsame := hclosed e he
    rw [Bool.eq_iff_iff]
    simp only [Bool.and_eq_true, Bool.not_eq_true', List.contains_eq_mem, decide_eq_true_eq,
      decide_eq_false_iff_not, List.mem_filter]
    grind
  · intro e he houtside
    obtain ⟨hmem, hkeep⟩ := List.mem_filter.1 he
    have hsource : e.source ∈ sources := by
      simp only [Bool.and_eq_true, List.contains_eq_mem, decide_eq_true_eq] at hkeep
      exact hkeep.1
    exact hsources _ hsource (by rw [hclosed e hmem, houtside])

theorem searchAmong_map_lifted
    (hplain : ∀ e ∈ edges, e.source.isOption = false ∧ e.target.isOption = false)
    (hsources : ∀ u ∈ sources, u.isOption = false)
    (haccepts : ∀ t : TypeExpr, t.isOption = false → accepts' t.nullable = accepts t) :
    searchAmong (edges.map Converter.lifted) rounds (sources.map TypeExpr.nullable) accepts' =
      (searchAmong edges rounds sources accepts).map Converter.lifted := by
  have hstart : (edges.map Converter.lifted).filter (fun e =>
      (sources.map TypeExpr.nullable).contains e.source &&
        !(sources.map TypeExpr.nullable).contains e.target) =
      (edges.filter fun e => sources.contains e.source && !sources.contains e.target).map
        Converter.lifted := by
    rw [List.filter_map]
    refine congrArg (List.map _) (List.filter_congr fun e he => ?_)
    obtain ⟨hsource, htarget⟩ := hplain e he
    simp only [Function.comp_apply, Converter.source_lifted, Converter.target_lifted,
      contains_map_nullable hsources hsource, contains_map_nullable hsources htarget]
  rw [searchAmong, hstart]
  exact searchFrom_map_lifted hplain haccepts rounds hsources fun c hc =>
    (hplain c (List.mem_filter.1 hc).1).2

/-- A search among optional types finds the lift of what the search among the plain types finds. -/
theorem search_nullable (h : s.Plain)
    (hsources : sources'.filter TypeExpr.isOption =
      (sources.filter (!·.isOption)).map TypeExpr.nullable)
    (haccepts : ∀ t : TypeExpr, t.isOption = false → accepts' t.nullable = accepts t)
    (hplain : ∀ u ∈ sources, u.isOption = true → ∀ t, accepts t = true → t.isOption = false)
    (hoptional : ∀ u ∈ sources', u.isOption = false → ∀ t, accepts' t = true → t.isOption = true) :
    s.search sources' accepts' = (s.search sources accepts).map Converter.lifted := by
  have hclosed := isOption_source_eq_target h
  have hclosed' : ∀ e ∈ s.edges, (!e.source.isOption) = !e.target.isOption :=
    fun e he => congrArg not (hclosed e he)
  have hplain' : ∀ u ∈ sources, (!u.isOption) = false → ∀ t, accepts t = true →
      (!t.isOption) = true := by simpa using hplain
  rw [search_eq_searchAmong, search_eq_searchAmong, searchAmong_filter _ hclosed hoptional,
    searchAmong_filter (!·.isOption) hclosed' hplain', filter_optional h,
    filter_plain h, hsources]
  exact searchAmong_map_lifted (plainEdges_plain h) (by simp) haccepts

theorem isColumnType_nullable (wish : Option Affinity) (t : TypeExpr) :
    isColumnType wish t.nullable = isColumnType wish t := by
  rw [Bool.eq_iff_iff, isColumnType_iff, isColumnType_iff, ColumnType.ofType?_nullable]
  cases ColumnType.ofType? t with
  | none => simp
  | some column => simp [ColumnType.affinity, ColumnType.asOptional]

/-- Of the column types, those that are optional are the optional forms of the others. -/
theorem filter_columnTypes (wish : Option Affinity) :
    ((columnTypes wish).map ColumnType.type).filter TypeExpr.isOption =
      (((columnTypes wish).map ColumnType.type).filter (!·.isOption)).map TypeExpr.nullable := by
  cases wish with
  | none => decide +kernel
  | some a => cases a <;> decide +kernel

theorem preferring_map (wish : Option Affinity) (find : Option Affinity → Option Converter)
    (f : Converter → Converter) :
    preferring wish (fun a => (find a).map f) = (preferring wish find).map f := by
  cases wish with
  | none => rfl
  | some a => simp only [preferring]; cases find (some a) <;> rfl

theorem intoColumn_nullable (h : s.Plain) (ht : t.isOption = false) (wish : Option Affinity) :
    s.intoColumn? t.nullable wish = (s.intoColumn? t wish).map Converter.lifted := by
  rw [intoColumn?, intoColumn?, ← preferring_map]
  refine congrArg (preferring wish) (funext fun a => search_nullable h ?_ ?_ ?_ ?_)
  · simp [ht]
  · exact fun u _ => isColumnType_nullable a u
  · simp [ht]
  · simp

theorem fromColumn_nullable (h : s.Plain) (ht : t.isOption = false) (wish : Option Affinity) :
    s.fromColumn? t.nullable wish = (s.fromColumn? t wish).map Converter.lifted := by
  rw [fromColumn?, fromColumn?, ← preferring_map]
  refine congrArg (preferring wish) (funext fun a => search_nullable h (filter_columnTypes a) ?_ ?_ ?_)
  · intro u hu
    simp [TypeExpr.nullable_inj hu ht]
  · simp [ht]
  · simp

end Store

/-- A binder of the plain type, for its optional form. -/
def ValueBinder.lifted (b : ValueBinder) : ValueBinder :=
  ⟨b.type.nullable, b.column.asOptional, b.converter.map Converter.lifted⟩

/-- A reader of the plain type, for its optional form. -/
def ValueReader.lifted (r : ValueReader) : ValueReader :=
  ⟨r.type.nullable, r.column.asOptional, r.converter.map Converter.lifted⟩

namespace Store

variable {s : Store} {t : TypeExpr}

theorem binder_nullable (h : s.Plain) (ht : t.isOption = false) (wish : Option Affinity) :
    s.binder? t.nullable wish = (s.binder? t wish).map ValueBinder.lifted := by
  rw [binder?, binder?, ColumnType.ofType?_nullable, intoColumn_nullable h ht]
  cases ColumnType.ofType? t with
  | some column => rfl
  | none =>
    cases s.intoColumn? t wish with
    | none => rfl
    | some c =>
      simp only [Option.map_none, Option.map_some, Option.bind_eq_bind, Option.bind_some,
        Converter.target_lifted, ColumnType.ofType?_nullable]
      cases ColumnType.ofType? c.target <;> rfl

theorem reader_nullable (h : s.Plain) (ht : t.isOption = false) (wish : Option Affinity) :
    s.reader? t.nullable wish = (s.reader? t wish).map ValueReader.lifted := by
  rw [reader?, reader?, ColumnType.ofType?_nullable, fromColumn_nullable h ht]
  cases ColumnType.ofType? t with
  | some column => rfl
  | none =>
    cases s.fromColumn? t wish with
    | none => rfl
    | some c =>
      simp only [Option.map_none, Option.map_some, Option.bind_eq_bind, Option.bind_some,
        Converter.source_lifted, ColumnType.ofType?_nullable]
      cases ColumnType.ofType? c.source <;> rfl

theorem steps_mem_of_chainAt {edges : List Converter} {sources : List TypeExpr}
    {p : List (Fin edges.length)} {c : Converter} (hsingle : ∀ e ∈ edges, e.steps = [e])
    (h : ChainAt edges sources p c) : ∀ e ∈ c.steps, e ∈ edges := by
  have hstep : ∀ i : Fin edges.length, ∀ e ∈ edges[i].steps, e ∈ edges := fun i e he => by
    have hmem : edges[i] ∈ edges := List.getElem_mem i.isLt
    rw [hsingle _ hmem, List.mem_singleton] at he
    exact he ▸ hmem
  induction h with
  | start => exact hstep _
  | step _ _ ih => exact fun e he => (List.mem_append.1 he).elim (ih e) (hstep _ e)

theorem target_mem_of_chainAt {edges : List Converter} {sources : List TypeExpr}
    {p : List (Fin edges.length)} {c : Converter} (h : ChainAt edges sources p c) :
    ∃ e ∈ edges, c.target = e.target := by
  cases h with
  | start => exact ⟨_, List.getElem_mem _, rfl⟩
  | step => exact ⟨_, List.getElem_mem _, rfl⟩

theorem steps_plainEdges : ∀ e ∈ s.plainEdges, e.steps = [e] := by
  intro e he
  simp only [plainEdges, List.mem_append, List.mem_map, List.mem_cons, List.not_mem_nil,
    or_false] at he
  rcases he with ⟨m, -, rfl⟩ | rfl | rfl <;> rfl

theorem stepLift_plainEdges : ∀ e ∈ s.plainEdges, e.StepLift e.lifted := by
  intro e he
  simp only [plainEdges, List.mem_append, List.mem_map, List.mem_cons, List.not_mem_nil,
    or_false] at he
  rcases he with ⟨m, -, rfl⟩ | rfl | rfl
  · exact .custom m
  · exact .boolToInt
  · exact .intToBool

/-- What a search for plain types finds takes steps between plain types only. -/
theorem chainLift_of_search {sources : List TypeExpr} {accepts : TypeExpr → Bool} {c : Converter}
    (h : s.Plain)
    (hplain : ∀ u ∈ sources, u.isOption = true → ∀ t, accepts t = true → t.isOption = false)
    (hc : s.search sources accepts = some c) : c.ChainLift c.lifted := by
  have hclosed : ∀ e ∈ s.edges, (!e.source.isOption) = !e.target.isOption :=
    fun e he => congrArg not (isOption_source_eq_target h e he)
  have hplain' : ∀ u ∈ sources, (!u.isOption) = false → ∀ t, accepts t = true →
      (!t.isOption) = true := by simpa using hplain
  rw [search_eq_searchAmong, searchAmong_filter (!·.isOption) hclosed hplain',
    filter_plain h, searchAmong, ← map_snd_startAt,
    searchFrom_eq_some_iff _ round_start fun t ht _ => reached_zero.1 ht] at hc
  obtain ⟨p, hp, -⟩ := hc
  have hchain := hp.route.chain
  have hsource : c.source.isOption = false := by
    simpa using (List.mem_filter.1 hchain.source_mem).2
  obtain ⟨last, hlast, htarget⟩ := target_mem_of_chainAt hchain
  have htarget : c.target.isOption = false := by
    rw [htarget, (plainEdges_plain h last hlast).2]
  exact {
    steps := by
      rw [Converter.steps_lifted, List.forall₂_map_right_iff, List.forall₂_same]
      exact fun e he => stepLift_plainEdges e (steps_mem_of_chainAt steps_plainEdges hchain e he)
    methods := c.methods_lifted
    hops := c.hops_lifted
    source := by rw [Converter.source_lifted, TypeExpr.nullable_of_plain hsource]
    target := by rw [Converter.target_lifted, TypeExpr.nullable_of_plain htarget] }

theorem chainLift_intoColumn {wish : Option Affinity} {c : Converter} (h : s.Plain)
    (ht : t.isOption = false) (hc : s.intoColumn? t wish = some c) : c.ChainLift c.lifted := by
  rcases preferring_eq_some hc with ⟨a, -, hfound⟩ | ⟨-, hfound⟩
  · exact chainLift_of_search h (by simp [ht]) hfound
  · exact chainLift_of_search h (by simp [ht]) hfound

theorem chainLift_fromColumn {wish : Option Affinity} {c : Converter} (h : s.Plain)
    (ht : t.isOption = false) (hc : s.fromColumn? t wish = some c) : c.ChainLift c.lifted := by
  rcases preferring_eq_some hc with ⟨a, -, hfound⟩ | ⟨-, hfound⟩
  · exact chainLift_of_search h (by simp [ht]) hfound
  · exact chainLift_of_search h (by simp [ht]) hfound

/-- Without declared converters of optional types, the optional form of a plain type is bound and read
exactly when the type is, by the lift of the same chain and as the optional form of the same column
type. -/
theorem optional_as_plain (wish : Option Affinity)
    (hcustom : ∀ m ∈ s.custom, m.source.isOption = false ∧ m.target.isOption = false)
    (ht : t.isOption = false) :
    ((s.binder? (.optionOf t) wish).isSome ↔ (s.binder? t wish).isSome) ∧
    ((s.reader? (.optionOf t) wish).isSome ↔ (s.reader? t wish).isSome) ∧
    (ColumnType.ofType? t = none →
      (∀ b, s.binder? t wish = some b → ∃ c b' c',
        b.converter = some c ∧ s.binder? (.optionOf t) wish = some b' ∧ b'.converter = some c' ∧
        c.ChainLift c' ∧ b'.column.type = .optionOf b.column.type) ∧
      (∀ r, s.reader? t wish = some r → ∃ c r' c',
        r.converter = some c ∧ s.reader? (.optionOf t) wish = some r' ∧ r'.converter = some c' ∧
        c.ChainLift c' ∧ r'.column.type = .optionOf r.column.type)) := by
  have hbinder := binder_nullable hcustom ht wish
  have hreader := reader_nullable hcustom ht wish
  rw [TypeExpr.nullable_of_plain ht] at hbinder hreader
  refine ⟨by rw [hbinder, Option.isSome_map], by rw [hreader, Option.isSome_map],
    fun hnone => ⟨fun b hb => ?_, fun r hr => ?_⟩⟩
  · obtain ⟨c, hc, hcolumn, hconverter⟩ := binder_eq_some hnone hb
    have hlift := chainLift_intoColumn hcustom ht hc
    refine ⟨c, b.lifted, c.lifted, hconverter, by rw [hbinder, hb]; rfl, ?_, hlift, ?_⟩
    · rw [ValueBinder.lifted, hconverter]
      rfl
    · have htype := ColumnType.type_of_ofType? hcolumn
      rw [ValueBinder.lifted, ColumnType.type_asOptional, htype, ← Converter.target_lifted, hlift.target]
  · obtain ⟨c, hc, hcolumn, hconverter⟩ := reader_eq_some hnone hr
    have hlift := chainLift_fromColumn hcustom ht hc
    refine ⟨c, r.lifted, c.lifted, hconverter, by rw [hreader, hr]; rfl, ?_, hlift, ?_⟩
    · rw [ValueReader.lifted, hconverter]
      rfl
    · have htype := ColumnType.type_of_ofType? hcolumn
      rw [ValueReader.lifted, ColumnType.type_asOptional, htype, ← Converter.source_lifted, hlift.source]

def flagConverter : Schema.CustomConverter :=
  ⟨"Flags", .static, "is_set", .simple "Flag", TypeExpr.Primitive.bool.type⟩

/-- A flag is kept as a boolean, which is an integer in its column. -/
def flagStore : Store where
  decls := {}
  maxHops := 2
  custom := [flagConverter]

theorem optional_as_plain_flag :
    flagStore.binder? (.optionOf (.simple "Flag")) (some .integer) =
        some ⟨.optionOf (.simple "Flag"), ⟨.scalar .i32, true⟩,
          some (.chain (.nullSafe (.custom flagConverter)) .optionBoolToInt)⟩ ∧
      (Converter.chain (.custom flagConverter) .boolToInt).ChainLift
        (.chain (.nullSafe (.custom flagConverter)) .optionBoolToInt) := by
  have hcustom : ∀ m ∈ flagStore.custom, m.source.isOption = false ∧ m.target.isOption = false := by
    decide
  have hbinder : flagStore.binder? (.simple "Flag") (some .integer) =
      some ⟨.simple "Flag", ⟨.scalar .i32, false⟩,
        some (.chain (.custom flagConverter) .boolToInt)⟩ := by decide +kernel
  have hflag : (TypeExpr.simple "Flag").isOption = false := by decide
  have hlifts := (optional_as_plain (some .integer) hcustom hflag).2.2 (by decide +kernel)
  obtain ⟨c, b, c', hc, hb, hc', hlift, -⟩ := hlifts.1 _ hbinder
  have hfound : flagStore.binder? (.optionOf (.simple "Flag")) (some .integer) =
      some ⟨.optionOf (.simple "Flag"), ⟨.scalar .i32, true⟩,
        some (.chain (.nullSafe (.custom flagConverter)) .optionBoolToInt)⟩ := by decide +kernel
  obtain rfl := Option.some.inj hc
  obtain rfl := Option.some.inj (hb.symm.trans hfound)
  obtain rfl := Option.some.inj hc'
  exact ⟨hfound, hlift⟩

end Store

end DataAccess.Convert
