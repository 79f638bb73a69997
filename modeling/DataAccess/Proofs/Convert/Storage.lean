import DataAccess.Proofs.Convert.Chains

/-!
Whether a value is read with the affinity that it was stored with. The two directions are searched
for on their own, each among the column types of the wished affinity first and then among all. They
agree when both find the wished affinity. When one of them does and the other does not, they disagree;
when neither does, it is left to the first chains among all column types.
-/

set_option autoImplicit false

namespace DataAccess.Convert

namespace ColumnType

theorem type_of_ofType? {t : TypeExpr} {column : ColumnType} (h : ofType? t = some column) :
    column.type = t := by
  simpa using List.find?_some h

theorem ofType?_type (column : ColumnType) (h : column ∈ all) : ofType? column.type = some column := by
  revert column
  decide +kernel

end ColumnType

theorem ChainAt.from_source {edges : List Converter} {sources sources' : List TypeExpr}
    {p : List (Fin edges.length)} {c : Converter} (h : ChainAt edges sources p c)
    (hsource : c.source ∈ sources') : ChainAt edges sources' p c := by
  induction h with
  | start => exact .start hsource
  | step _ hjoin ih => exact .step (ih hsource) hjoin

namespace Store

variable {s : Store} {t : TypeExpr} {wish : Option Affinity} {a : Affinity}

theorem mem_columnTypes {column : ColumnType} :
    column ∈ columnTypes wish ↔
      column ∈ ColumnType.all ∧ ∀ a, wish = some a → column.affinity = a := by
  cases wish with
  | none => simp [columnTypes]
  | some a => simp [columnTypes]

theorem isColumnType_iff :
    isColumnType wish t = true ↔
      ∃ column, ColumnType.ofType? t = some column ∧ ∀ a, wish = some a → column.affinity = a := by
  simp only [isColumnType, List.any_eq_true, mem_columnTypes, decide_eq_true_eq]
  constructor
  · rintro ⟨column, ⟨hmem, hwish⟩, rfl⟩
    exact ⟨column, column.ofType?_type hmem, hwish⟩
  · rintro ⟨column, hcolumn, hwish⟩
    exact ⟨column, ⟨List.mem_of_find?_eq_some hcolumn, hwish⟩, ColumnType.type_of_ofType? hcolumn⟩

theorem isColumnType_some :
    isColumnType (some a) t = true ↔
      ∃ column, ColumnType.ofType? t = some column ∧ column.affinity = a := by
  simp [isColumnType_iff]

theorem mem_map_columnTypes :
    t ∈ (columnTypes wish).map ColumnType.type ↔ isColumnType wish t = true := by
  simp [isColumnType]

theorem not_mem_columnTypes (ht : ColumnType.ofType? t = none) :
    t ∉ (columnTypes wish).map ColumnType.type := by
  rw [mem_map_columnTypes, isColumnType_iff]
  rintro ⟨column, hcolumn, -⟩
  exact absurd hcolumn (by simp [ht])

variable (s t) in
/-- A chain of allowed length leads from the type into a column type of the affinity, or of any. -/
def Stores (wish : Option Affinity) : Prop :=
  ∃ p c, RouteAt s.edges [t] (isColumnType wish) p c ∧ p.length ≤ max s.maxHops 1

variable (s t) in
/-- A chain of allowed length leads from a column type of the affinity, or of any, to the type. -/
def Loads (wish : Option Affinity) : Prop :=
  ∃ p c, RouteAt s.edges ((columnTypes wish).map ColumnType.type) (· = t) p c ∧
    p.length ≤ max s.maxHops 1

variable (s t) in
/-- The first chain from the type into any column type ends with the affinity. -/
def FirstStores (a : Affinity) : Prop :=
  ∃ p c, FirstAt s.edges [t] (isColumnType none) p c ∧ isColumnType (some a) c.target = true

variable (s t) in
/-- The first chain from any column type to the type starts with the affinity. -/
def FirstLoads (a : Affinity) : Prop :=
  ∃ p c, FirstAt s.edges ((columnTypes none).map ColumnType.type) (· = t) p c ∧
    isColumnType (some a) c.source = true

theorem affinity_unique {b : Affinity} (ha : isColumnType (some a) t = true)
    (hb : isColumnType (some b) t = true) : a = b := by
  obtain ⟨column, hcolumn, rfl⟩ := isColumnType_some.1 ha
  obtain ⟨column', hcolumn', rfl⟩ := isColumnType_some.1 hb
  rw [Option.some.inj (hcolumn.symm.trans hcolumn')]

theorem FirstStores.unique {b : Affinity} (ha : s.FirstStores t a) (hb : s.FirstStores t b) :
    a = b := by
  obtain ⟨p, c, hc, hac⟩ := ha
  obtain ⟨q, d, hd, hbd⟩ := hb
  rw [hc.unique hd] at hac
  exact affinity_unique hac hbd

theorem FirstLoads.unique {b : Affinity} (ha : s.FirstLoads t a) (hb : s.FirstLoads t b) :
    a = b := by
  obtain ⟨p, c, hc, hac⟩ := ha
  obtain ⟨q, d, hd, hbd⟩ := hb
  rw [hc.unique hd] at hac
  exact affinity_unique hac hbd

theorem preferring_eq_some {find : Option Affinity → Option Converter} {c : Converter}
    (h : preferring wish find = some c) :
    (∃ a, wish = some a ∧ find (some a) = some c) ∨
      ((∀ a, wish = some a → find (some a) = none) ∧ find none = some c) := by
  cases wish with
  | none => exact .inr ⟨nofun, h⟩
  | some a =>
    rcases Option.or_eq_some_iff.1 h with hwished | ⟨hnone, hany⟩
    · exact .inl ⟨a, rfl, hwished⟩
    · refine .inr ⟨fun a' ha' => ?_, hany⟩
      obtain rfl := Option.some.inj ha'
      exact hnone

/-- What a direction settles on: an affinity that it reaches, which is the wished one unless that
cannot be reached; then it is that of the first chain. -/
structure Settled (wish : Option Affinity) (reaches first : Affinity → Prop) (a : Affinity) :
    Prop where
  reached : reaches a
  chosen : wish = some a ∨ (∀ b, wish = some b → ¬reaches b) ∧ first a

namespace Settled

variable {reaches first reaches' first' : Affinity → Prop} {b : Affinity}

theorem eq_of_reached (h : Settled wish reaches first a) (hwish : wish = some b)
    (hb : reaches b) : a = b := by
  rcases h.chosen with ha | ⟨hnone, -⟩
  · exact Option.some.inj (ha.symm.trans hwish)
  · exact absurd hb (hnone b hwish)

theorem eq_of_first (h : Settled wish reaches first a) (hnone : ∀ x, wish = some x → ¬reaches x)
    (hunique : ∀ {x y}, first x → first y → x = y) (hb : first b) : a = b := by
  rcases h.chosen with ha | ⟨-, hfirst⟩
  · exact absurd h.reached (hnone a ha)
  · exact hunique hfirst hb

/-- Two directions settle on one affinity when both reach the wished one, or neither does and their
first chains meet. -/
theorem eq_iff (ha : Settled wish reaches first a) (hb : Settled wish reaches' first' b)
    (hunique : ∀ {x y}, first x → first y → x = y)
    (hunique' : ∀ {x y}, first' x → first' y → x = y) :
    a = b ↔
      (∃ x, wish = some x ∧ reaches x ∧ reaches' x) ∨
      ((∀ x, wish = some x → ¬reaches x ∧ ¬reaches' x) ∧ ∃ x, first x ∧ first' x) := by
  constructor
  · rintro rfl
    rcases ha.chosen with hwish | ⟨hnone, hfirst⟩
    · exact .inl ⟨a, hwish, ha.reached, hb.reached⟩
    · rcases hb.chosen with hwish | ⟨hnone', hfirst'⟩
      · exact absurd ha.reached (hnone a hwish)
      · exact .inr ⟨fun x hx => ⟨hnone x hx, hnone' x hx⟩, a, hfirst, hfirst'⟩
  · rintro (⟨x, hx, hreaches, hreaches'⟩ | ⟨hnone, x, hx, hx'⟩)
    · rw [ha.eq_of_reached hx hreaches, hb.eq_of_reached hx hreaches']
    · rw [ha.eq_of_first (fun y hy => (hnone y hy).1) hunique hx,
        hb.eq_of_first (fun y hy => (hnone y hy).2) hunique' hx']

end Settled

theorem isSome_search_into : (s.search [t] (isColumnType wish)).isSome ↔ s.Stores t wish :=
  s.isSome_search_iff [t] (isColumnType wish)

theorem isSome_search_from :
    (s.search ((columnTypes wish).map ColumnType.type) (· = t)).isSome ↔ s.Loads t wish :=
  s.isSome_search_iff _ _

theorem stores_of_search {c : Converter} (hc : s.search [t] (isColumnType wish) = some c)
    (ha : isColumnType (some a) c.target = true) : s.Stores t (some a) := by
  obtain ⟨p, hp, hlength⟩ := (s.search_eq_some_iff _ _).1 hc
  exact ⟨p, c, ⟨hp.route.chain, ha, hp.route.outside⟩, hlength⟩

theorem loads_of_search {c : Converter}
    (hc : s.search ((columnTypes wish).map ColumnType.type) (· = t) = some c)
    (ht : ColumnType.ofType? t = none) (ha : isColumnType (some a) c.source = true) :
    s.Loads t (some a) := by
  obtain ⟨p, hp, hlength⟩ := (s.search_eq_some_iff _ _).1 hc
  have htarget : c.target = t := by simpa using hp.route.accepted
  -- The chain is one from the column types of its own affinity, since it starts with one of them.
  refine ⟨p, c, ⟨hp.route.chain.from_source (mem_map_columnTypes.2 ha), hp.route.accepted, ?_⟩,
    hlength⟩
  rw [htarget]
  exact not_mem_columnTypes ht

theorem settled_of_preferring {find : Option Affinity → Option Converter} {c : Converter}
    {reaches first : Affinity → Prop} (hc : preferring wish find = some c)
    (hreached : ∀ w, find w = some c → reaches a) (hwished : ∀ x, find (some x) = some c → x = a)
    (hfinds : ∀ x, reaches x → (find (some x)).isSome) (hfirst : find none = some c → first a) :
    Settled wish reaches first a := by
  rcases preferring_eq_some hc with ⟨x, rfl, hfound⟩ | ⟨hnone, hfound⟩
  · exact ⟨hreached _ hfound, .inl (congrArg some (hwished x hfound))⟩
  · refine ⟨hreached _ hfound, .inr ⟨fun x hx hreaches => ?_, hfirst hfound⟩⟩
    have hsome := hfinds x hreaches
    rw [hnone x hx] at hsome
    exact absurd hsome (by decide)

theorem settled_intoColumn {c : Converter} (hc : s.intoColumn? t wish = some c)
    (ha : isColumnType (some a) c.target = true) :
    Settled wish (fun x => s.Stores t (some x)) (s.FirstStores t) a := by
  refine settled_of_preferring hc (fun w hfound => stores_of_search hfound ha) (fun x hfound => ?_)
    (fun x hstores => isSome_search_into.2 hstores) fun hfound => ?_
  · obtain ⟨p, hp, -⟩ := (s.search_eq_some_iff _ _).1 hfound
    exact affinity_unique hp.route.accepted ha
  · obtain ⟨p, hp, -⟩ := (s.search_eq_some_iff _ _).1 hfound
    exact ⟨p, c, hp, ha⟩

theorem settled_fromColumn {c : Converter} (hc : s.fromColumn? t wish = some c)
    (ht : ColumnType.ofType? t = none) (ha : isColumnType (some a) c.source = true) :
    Settled wish (fun x => s.Loads t (some x)) (s.FirstLoads t) a := by
  refine settled_of_preferring hc (fun w hfound => loads_of_search hfound ht ha) (fun x hfound => ?_)
    (fun x hloads => isSome_search_from.2 hloads) fun hfound => ?_
  · obtain ⟨p, hp, -⟩ := (s.search_eq_some_iff _ _).1 hfound
    exact affinity_unique (mem_map_columnTypes.1 hp.route.chain.source_mem) ha
  · obtain ⟨p, hp, -⟩ := (s.search_eq_some_iff _ _).1 hfound
    exact ⟨p, c, hp, ha⟩

theorem binder_eq_some {b : ValueBinder} (ht : ColumnType.ofType? t = none)
    (hb : s.binder? t wish = some b) :
    ∃ c, s.intoColumn? t wish = some c ∧ ColumnType.ofType? c.target = some b.column ∧
      b.converter = some c := by
  simp only [binder?, ht, bind, Option.bind_eq_some_iff, pure, Option.some.injEq] at hb
  obtain ⟨c, hc, column, hcolumn, rfl⟩ := hb
  exact ⟨c, hc, hcolumn, rfl⟩

theorem reader_eq_some {r : ValueReader} (ht : ColumnType.ofType? t = none)
    (hr : s.reader? t wish = some r) :
    ∃ c, s.fromColumn? t wish = some c ∧ ColumnType.ofType? c.source = some r.column ∧
      r.converter = some c := by
  simp only [reader?, ht, bind, Option.bind_eq_some_iff, pure, Option.some.injEq] at hr
  obtain ⟨c, hc, column, hcolumn, rfl⟩ := hr
  exact ⟨c, hc, hcolumn, rfl⟩

/-- A value is read with the affinity that it was stored with exactly when its type is built in, or
both directions reach the wished affinity, or neither does and the first chains of the two meet in
one affinity. -/
theorem affinity_binder_eq_reader_iff {b : ValueBinder} {r : ValueReader}
    (hb : s.binder? t wish = some b) (hr : s.reader? t wish = some r) :
    b.column.affinity = r.column.affinity ↔
      (ColumnType.ofType? t).isSome ∨
      (∃ a, wish = some a ∧ s.Stores t (some a) ∧ s.Loads t (some a)) ∨
      ((∀ a, wish = some a → ¬s.Stores t (some a) ∧ ¬s.Loads t (some a)) ∧
        ∃ a, s.FirstStores t a ∧ s.FirstLoads t a) := by
  cases ht : ColumnType.ofType? t with
  | some column =>
    have hbcolumn : b.column = column := by
      rw [binder?, ht] at hb
      rw [← Option.some.inj hb]
    have hrcolumn : r.column = column := by
      rw [reader?, ht] at hr
      rw [← Option.some.inj hr]
    simp [hbcolumn, hrcolumn]
  | none =>
    obtain ⟨c, hc, hcolumn, -⟩ := binder_eq_some ht hb
    obtain ⟨d, hd, hcolumn', -⟩ := reader_eq_some ht hr
    have hstored := settled_intoColumn hc (isColumnType_some.2 ⟨_, hcolumn, rfl⟩)
    have hloaded := settled_fromColumn hd ht (isColumnType_some.2 ⟨_, hcolumn', rfl⟩)
    rw [hstored.eq_iff hloaded FirstStores.unique FirstLoads.unique]
    simp

/-- Dates are first written as a text and first read from a number. -/
def mixedStore : Store where
  decls := {}
  maxHops := 2
  custom := [dateConverter "from_millis" (.simple "i64") (.simple "Date"),
    dateConverter "to_text" (.simple "Date") .string,
    dateConverter "from_text" .string (.simple "Date"),
    dateConverter "to_millis" (.simple "Date") (.simple "i64")]

theorem affinity_binder_ne_reader_date : ∃ b r,
    mixedStore.binder? (.simple "Date") none = some b ∧
    mixedStore.reader? (.simple "Date") none = some r ∧
    b.column.affinity = .text ∧ r.column.affinity = .integer ∧
    ¬∃ a, mixedStore.FirstStores (.simple "Date") a ∧ mixedStore.FirstLoads (.simple "Date") a := by
  let b : ValueBinder := ⟨.simple "Date", ⟨.string, false⟩,
    some (.custom (dateConverter "to_text" (.simple "Date") .string))⟩
  let r : ValueReader := ⟨.simple "Date", ⟨.scalar .i64, false⟩,
    some (.custom (dateConverter "from_millis" (.simple "i64") (.simple "Date")))⟩
  have hb : mixedStore.binder? (.simple "Date") none = some b := by decide +kernel
  have hr : mixedStore.reader? (.simple "Date") none = some r := by decide +kernel
  refine ⟨b, r, hb, hr, rfl, rfl, fun hfirst => ?_⟩
  have hmeet := (affinity_binder_eq_reader_iff hb hr).2 (.inr (.inr ⟨nofun, hfirst⟩))
  exact absurd hmeet (by decide)

theorem converter_eq_some {u : TypeExpr} {c : Converter} (h : s.converter? u t = some c) :
    c.source = u ∧ c.target = t := by
  unfold converter? at h
  split at h
  · rename_i heq
    obtain rfl := Option.some.inj h
    exact ⟨rfl, heq⟩
  · obtain ⟨p, hp, -⟩ := (s.search_eq_some_iff _ _).1 h
    exact ⟨by simpa using hp.route.chain.source_mem, by simpa using hp.route.accepted⟩

/-- An adapter for both directions writes as the binder does and reads through the very type that it
writes. -/
theorem columnAdapter_eq_some {adapter : ColumnAdapter} (ht : ColumnType.ofType? t = none)
    (h : s.columnAdapter? t wish = some adapter) :
    s.binder? t wish = some adapter.binder ∧
      ∃ c, adapter.fromColumn = some c ∧ c.source = adapter.column.type ∧ c.target = t := by
  simp only [columnAdapter?, ht, bind, Option.bind_eq_some_iff, pure, Option.some.injEq] at h
  obtain ⟨c, hc, column, hcolumn, back, hback, rfl⟩ := h
  have hends := converter_eq_some hback
  refine ⟨?_, back, rfl, ?_, hends.2⟩
  · simp [binder?, ht, hc, hcolumn, ColumnAdapter.binder]
  · rw [hends.1, ColumnType.type_of_ofType? hcolumn]

end Store

end DataAccess.Convert
