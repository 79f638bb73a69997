import DataAccess.Proofs.Convert.Storage

/-!
What a wished affinity does to a look-up. It never decides whether a type is bound or read at all. It
is heeded as soon as an allowed chain connects the type with a column type of that affinity, however
short the ways to other affinities are, and it changes nothing when there is no such chain. A built-in
type is its own column type under every wish.
-/

set_option autoImplicit false

namespace DataAccess.Convert

section Preferring

variable {find : Option Affinity → Option Converter} {a : Affinity}

theorem preferring_of_isSome (h : (find (some a)).isSome) :
    Store.preferring (some a) find = find (some a) := Option.or_of_isSome h

theorem preferring_of_isNone (h : ¬(find (some a)).isSome) :
    Store.preferring (some a) find = find none := by
  rw [Store.preferring, Option.not_isSome_iff_eq_none.1 h, Option.none_or]

theorem isSome_preferring (h : (find (some a)).isSome → (find none).isSome) :
    (Store.preferring (some a) find).isSome ↔ (find none).isSome := by
  by_cases hwished : (find (some a)).isSome
  · rw [preferring_of_isSome hwished]
    exact ⟨h, fun _ => hwished⟩
  · rw [preferring_of_isNone hwished]

theorem exists_of_preferring {wish : Option Affinity} {c : Converter}
    (h : Store.preferring wish find = some c) : ∃ w, find w = some c := by
  rcases Store.preferring_eq_some h with ⟨w, -, hfound⟩ | ⟨-, hfound⟩
  · exact ⟨some w, hfound⟩
  · exact ⟨none, hfound⟩

end Preferring

/-- A look-up takes what has the wished affinity if that can be reached, and otherwise what it takes
without a wish. -/
structure Prefers {α : Type} (find : Option Affinity → Option α) (affinity : α → Affinity)
    (reaches : Affinity → Prop) : Prop where
  heeded : ∀ a, reaches a → ∃ x, find (some a) = some x ∧ affinity x = a
  ignored : ∀ a, ¬reaches a → find (some a) = find none

namespace Store

variable {s : Store} {t : TypeExpr} {a : Affinity}

variable (s) in
/-- A chain of allowed length leads from one type to the other. -/
def Connects (source target : TypeExpr) : Prop :=
  ∃ p c, ChainAt s.edges [source] p c ∧ p.length ≤ max s.maxHops 1 ∧ c.target = target

variable (s t) in
/-- The type is connected with a column type of the affinity. -/
def ConnectsInto (a : Affinity) : Prop :=
  ∃ column ∈ ColumnType.all, column.affinity = a ∧ s.Connects t column.type

variable (s t) in
/-- A column type of the affinity is connected with the type. -/
def ConnectsFrom (a : Affinity) : Prop :=
  ∃ column ∈ ColumnType.all, column.affinity = a ∧ s.Connects column.type t

theorem ofType?_eq_none_iff :
    ColumnType.ofType? t = none ↔ t ∉ ColumnType.all.map ColumnType.type := by
  simp [ColumnType.ofType?, List.find?_eq_none]

theorem stores_iff (ht : ColumnType.ofType? t = none) :
    s.Stores t (some a) ↔ s.ConnectsInto t a := by
  constructor
  · rintro ⟨p, c, hroute, hlength⟩
    obtain ⟨column, hcolumn, haffinity⟩ := isColumnType_some.1 hroute.accepted
    exact ⟨column, List.mem_of_find?_eq_some hcolumn, haffinity, p, c, hroute.chain, hlength,
      (ColumnType.type_of_ofType? hcolumn).symm⟩
  · rintro ⟨column, hmem, haffinity, p, c, hchain, hlength, htarget⟩
    have hcolumn : ColumnType.ofType? c.target = some column := by
      rw [htarget, column.ofType?_type hmem]
    refine ⟨p, c, ⟨hchain, isColumnType_some.2 ⟨column, hcolumn, haffinity⟩, fun hsource => ?_⟩,
      hlength⟩
    rw [List.mem_singleton.1 hsource, ht] at hcolumn
    cases hcolumn

theorem loads_iff (ht : ColumnType.ofType? t = none) :
    s.Loads t (some a) ↔ s.ConnectsFrom t a := by
  constructor
  · rintro ⟨p, c, hroute, hlength⟩
    have hsource := hroute.chain.source_mem
    obtain ⟨column, hcolumn, haffinity⟩ := isColumnType_some.1 (mem_map_columnTypes.1 hsource)
    have hstart : c.source ∈ [column.type] := by
      rw [ColumnType.type_of_ofType? hcolumn]
      exact List.mem_singleton_self _
    exact ⟨column, List.mem_of_find?_eq_some hcolumn, haffinity, p, c,
      hroute.chain.from_source hstart, hlength, by simpa using hroute.accepted⟩
  · rintro ⟨column, hmem, haffinity, p, c, hchain, hlength, htarget⟩
    have hsource : c.source = column.type := List.mem_singleton.1 hchain.source_mem
    have hstart : c.source ∈ (columnTypes (some a)).map ColumnType.type := by
      rw [mem_map_columnTypes, isColumnType_some, hsource]
      exact ⟨column, column.ofType?_type hmem, haffinity⟩
    refine ⟨p, c, ⟨hchain.from_source hstart, by simpa using htarget, ?_⟩, hlength⟩
    rw [htarget]
    exact not_mem_columnTypes ht

theorem isColumnType_any (h : isColumnType (some a) t = true) : isColumnType none t = true := by
  obtain ⟨column, hcolumn, -⟩ := isColumnType_some.1 h
  exact isColumnType_iff.2 ⟨column, hcolumn, fun _ hnone => nomatch hnone⟩

theorem Stores.any (h : s.Stores t (some a)) : s.Stores t none := by
  obtain ⟨p, c, hroute, hlength⟩ := h
  exact ⟨p, c, ⟨hroute.chain, isColumnType_any hroute.accepted, hroute.outside⟩, hlength⟩

theorem Loads.any (ht : ColumnType.ofType? t = none) (h : s.Loads t (some a)) :
    s.Loads t none := by
  obtain ⟨p, c, hroute, hlength⟩ := h
  have hsource := isColumnType_any (mem_map_columnTypes.1 hroute.chain.source_mem)
  have htarget : c.target = t := by simpa using hroute.accepted
  refine ⟨p, c, ⟨hroute.chain.from_source (mem_map_columnTypes.2 hsource), hroute.accepted, ?_⟩,
    hlength⟩
  rw [htarget]
  exact not_mem_columnTypes ht

variable {wish : Option Affinity} {c : Converter}

theorem isSome_binder (ht : ColumnType.ofType? t = none) :
    (s.binder? t wish).isSome ↔ (s.intoColumn? t wish).isSome := by
  cases h : s.intoColumn? t wish with
  | none => simp [binder?, ht, h]
  | some c =>
    obtain ⟨w, hfound⟩ := exists_of_preferring h
    obtain ⟨p, hp, -⟩ := (s.search_eq_some_iff _ _).1 hfound
    obtain ⟨column, hcolumn, -⟩ := isColumnType_iff.1 hp.route.accepted
    simp [binder?, ht, h, hcolumn]

theorem isSome_reader (ht : ColumnType.ofType? t = none) :
    (s.reader? t wish).isSome ↔ (s.fromColumn? t wish).isSome := by
  cases h : s.fromColumn? t wish with
  | none => simp [reader?, ht, h]
  | some c =>
    obtain ⟨w, hfound⟩ := exists_of_preferring h
    obtain ⟨p, hp, -⟩ := (s.search_eq_some_iff _ _).1 hfound
    obtain ⟨column, hcolumn, -⟩ :=
      isColumnType_iff.1 (mem_map_columnTypes.1 hp.route.chain.source_mem)
    simp [reader?, ht, h, hcolumn]

/-- A wish decides nothing about whether a type is bound, -/
theorem isSome_binder_wish :
    (s.binder? t (some a)).isSome ↔ (s.binder? t none).isSome := by
  cases ht : ColumnType.ofType? t with
  | some column => simp [binder?, ht]
  | none =>
    rw [isSome_binder ht, isSome_binder ht]
    exact isSome_preferring fun h => isSome_search_into.2 (isSome_search_into.1 h).any

/-- and nothing about whether it is read. -/
theorem isSome_reader_wish :
    (s.reader? t (some a)).isSome ↔ (s.reader? t none).isSome := by
  cases ht : ColumnType.ofType? t with
  | some column => simp [reader?, ht]
  | none =>
    rw [isSome_reader ht, isSome_reader ht]
    exact isSome_preferring fun h => isSome_search_from.2 ((isSome_search_from.1 h).any ht)

theorem prefers_binder (ht : ColumnType.ofType? t = none) :
    Prefers (s.binder? t) (·.column.affinity) (s.ConnectsInto t) where
  heeded a ha := by
    have hwished := isSome_search_into.2 ((stores_iff ht).2 ha)
    obtain ⟨c, hc⟩ := Option.isSome_iff_exists.1 hwished
    have hinto : s.intoColumn? t (some a) = some c := (preferring_of_isSome hwished).trans hc
    obtain ⟨p, hp, -⟩ := (s.search_eq_some_iff _ _).1 hc
    obtain ⟨column, hcolumn, haffinity⟩ := isColumnType_some.1 hp.route.accepted
    exact ⟨⟨t, column, some c⟩, by simp [binder?, ht, hinto, hcolumn], haffinity⟩
  ignored a ha := by
    have hnone : ¬(s.search [t] (isColumnType (some a))).isSome := fun h =>
      ha ((stores_iff ht).1 (isSome_search_into.1 h))
    have hinto : s.intoColumn? t (some a) = s.intoColumn? t none := preferring_of_isNone hnone
    simp only [binder?, ht, hinto]

theorem prefers_reader (ht : ColumnType.ofType? t = none) :
    Prefers (s.reader? t) (·.column.affinity) (s.ConnectsFrom t) where
  heeded a ha := by
    have hwished := isSome_search_from.2 ((loads_iff ht).2 ha)
    obtain ⟨c, hc⟩ := Option.isSome_iff_exists.1 hwished
    have hfrom : s.fromColumn? t (some a) = some c := (preferring_of_isSome hwished).trans hc
    obtain ⟨p, hp, -⟩ := (s.search_eq_some_iff _ _).1 hc
    obtain ⟨column, hcolumn, haffinity⟩ :=
      isColumnType_some.1 (mem_map_columnTypes.1 hp.route.chain.source_mem)
    exact ⟨⟨t, column, some c⟩, by simp [reader?, ht, hfrom, hcolumn], haffinity⟩
  ignored a ha := by
    have hnone : ¬(s.search ((columnTypes (some a)).map ColumnType.type) (· = t)).isSome := fun h =>
      ha ((loads_iff ht).1 (isSome_search_from.1 h))
    have hfrom : s.fromColumn? t (some a) = s.fromColumn? t none := preferring_of_isNone hnone
    simp only [reader?, ht, hfrom]

/-- An affinity is a preference. With it a type is bound and read exactly when it is without it. A
type that is not built in gets the affinity whenever an allowed chain connects it with a column type
of that affinity, and otherwise gets what it gets without a wish. A built-in type is its own column
type, without a converter. -/
theorem affinity_preferred (s : Store) (t : TypeExpr) :
    (∀ a, ((s.binder? t (some a)).isSome ↔ (s.binder? t none).isSome) ∧
      ((s.reader? t (some a)).isSome ↔ (s.reader? t none).isSome)) ∧
    (t ∉ ColumnType.all.map ColumnType.type →
      Prefers (s.binder? t) (·.column.affinity) (s.ConnectsInto t) ∧
      Prefers (s.reader? t) (·.column.affinity) (s.ConnectsFrom t)) ∧
    ∀ column ∈ ColumnType.all, column.type = t → ∀ wish,
      s.binder? t wish = some { type := t, column } ∧
      s.reader? t wish = some { type := t, column } := by
  refine ⟨fun a => ⟨isSome_binder_wish, isSome_reader_wish⟩, fun ht => ?_, ?_⟩
  · exact ⟨prefers_binder (ofType?_eq_none_iff.2 ht), prefers_reader (ofType?_eq_none_iff.2 ht)⟩
  · rintro column hmem rfl wish
    rw [binder?, reader?, column.ofType?_type hmem]
    exact ⟨rfl, rfl⟩

/-- A date is a text, and only through that text a number. -/
def detourStore : Store where
  decls := {}
  maxHops := 2
  custom := [dateConverter "text" (.simple "Date") .string,
    dateConverter "parse" .string (.simple "i64")]

theorem affinity_preferred_date :
    detourStore.ConnectsInto (.simple "Date") .integer ∧
    ¬detourStore.ConnectsInto (.simple "Date") .real ∧
    (∃ b, detourStore.binder? (.simple "Date") (some .integer) = some b ∧
      b.column.affinity = .integer) ∧
    detourStore.binder? (.simple "Date") (some .real) = detourStore.binder? (.simple "Date") none := by
  have hplain : (.simple "Date" : TypeExpr) ∉ ColumnType.all.map ColumnType.type := by
    decide +kernel
  have hinteger : detourStore.ConnectsInto (.simple "Date") .integer := by
    rw [← stores_iff (ofType?_eq_none_iff.2 hplain), ← isSome_search_into]
    decide +kernel
  have hreal : ¬detourStore.ConnectsInto (.simple "Date") .real := by
    rw [← stores_iff (ofType?_eq_none_iff.2 hplain), ← isSome_search_into]
    decide +kernel
  have hprefers := ((affinity_preferred detourStore (.simple "Date")).2.1 hplain).1
  exact ⟨hinteger, hreal, hprefers.heeded .integer hinteger, hprefers.ignored .real hreal⟩

end Store

end DataAccess.Convert
