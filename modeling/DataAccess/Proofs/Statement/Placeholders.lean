import Mathlib
import DataAccess.Proofs.Code.Reading
import DataAccess.Proofs.Convert.Arguments
import DataAccess.Statement.QueryCode

/-!
What the placeholders of a query stand for: the text with a placeholder for every value, and the
cells that are bound to them.
-/

set_option autoImplicit false

namespace DataAccess.Statement

open Code DataAccess.Convert Sql

/-- The collection that a placeholder reads. -/
def Binding.collectionName? (b : Binding) : Option String := b.collection?.map Prod.fst

/-- What stands for a placeholder in the text. -/
def Binding.slots {V : Type} (rt : Runtime V) (arguments : String → V) (b : Binding) : String :=
  match b.collectionName? with
  | some x => rt.placeholders (rt.items (arguments x)).length
  | none => "?"

/-- The number of placeholders that stand for a placeholder. -/
def Binding.width {V : Type} (rt : Runtime V) (arguments : String → V) (b : Binding) : Nat :=
  match b.collectionName? with
  | some x => (rt.items (arguments x)).length
  | none => 1

/-- What a placeholder is bound to. -/
def Binding.cells {V : Type} (rt : Runtime V) (arguments : String → V) (b : Binding) :
    List (Cell V) :=
  match b.argument? with
  | some (x, a) => a.cells rt (arguments x)
  | none => []

/-- The number of placeholders that stand for all of them. -/
def placeholders {V : Type} (rt : Runtime V) (arguments : String → V) (bindings : List Binding) :
    Nat :=
  (bindings.map (Binding.width rt arguments)).sum

/-- The text of sections in which the bindings stand for the placeholders. -/
def filled {V : Type} (rt : Runtime V) (arguments : String → V) :
    List Section → List Binding → String
  | [], _ => ""
  | .bind _ _ :: sections, b :: bindings =>
    b.slots rt arguments ++ filled rt arguments sections bindings
  | .bind _ _ :: sections, [] => "?" ++ filled rt arguments sections []
  | s :: sections, bindings => s.source ++ filled rt arguments sections bindings

/-- Without collections the text has one `?` for each placeholder. -/
theorem filled_eq_normalized {V : Type} (rt : Runtime V) (arguments : String → V)
    {sections : List Section} {bindings : List Binding}
    (h : ∀ b ∈ bindings, b.collectionName? = none) :
    filled rt arguments sections bindings = Query.normalizedText sections := by
  induction sections generalizing bindings with
  | nil => rfl
  | cons s sections ih =>
    have hcons : Query.normalizedText (s :: sections) =
        Query.normalizedText [s] ++ Query.normalizedText sections := by
      simp [Query.normalizedText]
    rw [hcons]
    cases s with
    | text t =>
      simp only [filled, ih h]
      simp [Query.normalizedText]
    | newLine =>
      simp only [filled, ih h]
      simp [Query.normalizedText]
    | bind t name =>
      cases bindings with
      | nil =>
        rw [filled, ih h]
        simp [Query.normalizedText]
      | cons b bindings =>
        rw [filled, ih fun c hc => h c (List.mem_cons_of_mem _ hc), Binding.slots,
          h b List.mem_cons_self]
        simp [Query.normalizedText]


section Bindings

variable {V : Type} (rt : Runtime V) (arguments : String → V)

theorem length_cells {c : Binding} (h : c.argument?.isSome) :
    (c.cells rt arguments).length = c.width rt arguments := by
  obtain ⟨⟨x, a⟩, ha⟩ := Option.isSome_iff_exists.1 h
  rw [Binding.cells, Binding.width, Binding.collectionName?, Binding.collection?, ha]
  cases a with
  | value binder => rfl
  | collection binder =>
    change ((rt.items (arguments x)).map _).length = _
    rw [List.length_map]
    rfl

theorem length_flatMap_cells {bindings : List Binding} (h : ∀ c ∈ bindings, c.argument?.isSome) :
    (bindings.flatMap (Binding.cells rt arguments)).length = placeholders rt arguments bindings := by
  rw [List.length_flatMap, placeholders]
  exact congrArg List.sum (List.map_congr_left fun c hc => length_cells rt arguments (h c hc))

/-- The placeholders for collections, and one for each of the other parameters. -/
theorem placeholders_eq (bindings : List Binding) :
    placeholders rt arguments bindings =
      (bindings.length - (bindings.filterMap Binding.collectionName?).length) +
        ((bindings.filterMap Binding.collectionName?).map fun x =>
          (rt.items (arguments x)).length).sum := by
  induction bindings with
  | nil => rfl
  | cons c bindings ih =>
    have hle := List.length_filterMap_le Binding.collectionName? bindings
    rw [placeholders] at ih
    rw [placeholders, List.map_cons, List.sum_cons, ih, Binding.width]
    cases h : c.collectionName? with
    | none =>
      rw [List.filterMap_cons_none h, List.length_cons]
      dsimp only
      omega
    | some x =>
      rw [List.filterMap_cons_some h, List.length_cons, List.length_cons, List.map_cons,
        List.sum_cons]
      dsimp only
      omega

end Bindings

namespace BoundQuery

variable {b : BoundQuery}

theorem length_targetsFrom (largest : Nat) (used : List String)
    (binds : List (String × Option String)) :
    (Query.targetsFrom largest used binds).length = binds.length := by
  induction binds generalizing largest used with
  | nil => rfl
  | cons bind binds ih =>
    obtain ⟨text, name?⟩ := bind
    cases name? with
    | none => simp [Query.targetsFrom, ih]
    | some name =>
      rw [Query.targetsFrom]
      split <;> simp [ih]

theorem length_bindings (b : BoundQuery) : b.bindings.length = b.query.binds.length := by
  simp [bindings, Query.bindTargets, length_targetsFrom]

theorem length_filter_isBind (b : BoundQuery) :
    (b.query.sections.filter Section.isBind).length = b.bindings.length := by
  rw [length_bindings, Query.binds]
  induction b.query.sections with
  | nil => rfl
  | cons s sections ih =>
    cases s with
    | text | newLine => exact ih
    | bind text name => exact congrArg Nat.succ ih

theorem mem_params {c : Binding} {p : QueryParam} (hc : c ∈ b.bindings) (hp : c.param = some p) :
    p ∈ b.params := by
  obtain ⟨⟨⟨text, name?⟩, target⟩, -, rfl⟩ := List.mem_map.1 hc
  change paramOf? b.params target = some p at hp
  cases target with
  | named name => exact List.mem_of_find?_eq_some hp
  | index n => exact List.mem_of_getElem? hp

/-- Every placeholder of a complete query has an argument. -/
theorem isSome_argument? (hmissing : b.missing = []) (hargs : ∀ p ∈ b.params, p.argument.isSome) :
    ∀ c ∈ b.bindings, c.argument?.isSome := by
  intro c hc
  have hparam : c.param.isSome := by
    by_contra hnone
    have hmem : c.displayName ∈ (b.bindings.filter (·.param.isNone)).map Binding.displayName :=
      List.mem_map_of_mem (List.mem_filter.2 ⟨hc, by simpa using hnone⟩)
    rw [missing] at hmissing
    cases hnames : (b.bindings.filter (·.param.isNone)).map Binding.displayName with
    | nil => simp [hnames] at hmem
    | cons n names =>
      rw [hnames, List.eraseDups_cons] at hmissing
      cases hmissing
  obtain ⟨p, hp⟩ := Option.isSome_iff_exists.1 hparam
  obtain ⟨a, ha⟩ := Option.isSome_iff_exists.1 (hargs p (mem_params hc hp))
  simp [Binding.argument?, hp, ha]

theorem hasCollections_iff (b : BoundQuery) :
    b.hasCollections ↔ b.bindings.filterMap Binding.collectionName? ≠ [] := by
  simp only [hasCollections, arguments, List.any_eq_true, List.mem_filterMap, ne_eq,
    List.filterMap_eq_nil_iff, not_forall]
  constructor
  · rintro ⟨entry, ⟨c, hc, hentry⟩, hcollection⟩
    refine ⟨c, hc, ?_⟩
    simp [Binding.collectionName?, Binding.collection?, hentry, Option.filter, hcollection]
  · rintro ⟨c, hc, hname⟩
    obtain ⟨x, hx⟩ := Option.ne_none_iff_exists'.1 hname
    obtain ⟨entry, hentry, -⟩ := Option.map_eq_some_iff.1 hx
    obtain ⟨hargument, hcollection⟩ := Option.filter_eq_some_iff.1 hentry
    exact ⟨entry, ⟨c, hc, hargument⟩, hcollection⟩

theorem cellsOf_arguments {V : Type} (rt : Runtime V) (arguments : String → V) (b : BoundQuery) :
    cellsOf rt arguments b.arguments = b.bindings.flatMap (Binding.cells rt arguments) := by
  rw [cellsOf, BoundQuery.arguments]
  induction b.bindings with
  | nil => rfl
  | cons c bindings ih =>
    rw [List.flatMap_cons, ← ih, Binding.cells]
    cases h : c.argument? with
    | none => rw [List.filterMap_cons_none h]; rfl
    | some entry => rw [List.filterMap_cons_some h]; rfl

end BoundQuery

end DataAccess.Statement
