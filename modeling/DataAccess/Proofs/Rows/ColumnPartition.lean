import DataAccess.Proofs.Rows.Accounting

/-!
What meets when a record is read from known columns. Each column is used or not, each field has a
column or not, and whether the record can be read is told by its fields, its columns and its relations
one by one.
-/

set_option autoImplicit false

namespace DataAccess.Rows

open Schema
open DataAccess.Convert

/-- The names stand in the order in which they first occur among others. -/
def InFirstOrder (among names : List String) : Prop :=
  names.Pairwise fun a b => among.idxOf a < among.idxOf b

section FirstOrder

variable {p : String → Bool} {a b : String} {names : List String}

theorem idxOf_filter_lt (ha : p a = true) (hb : p b = true) :
    (names.filter p).idxOf a < (names.filter p).idxOf b ↔ names.idxOf a < names.idxOf b := by
  induction names with
  | nil => simp
  | cons n names ih =>
    by_cases hn : p n = true
    · rw [List.filter_cons_of_pos hn]
      by_cases hnb : n = b
      · simp [hnb, List.idxOf_cons_self]
      · by_cases hna : n = a
        · simp [hna ▸ hnb, hna, List.idxOf_cons_self, List.idxOf_cons_ne]
        · simp [List.idxOf_cons_ne, hna, hnb, ih]
    · have hna : n ≠ a := fun h => hn (h ▸ ha)
      have hnb : n ≠ b := fun h => hn (h ▸ hb)
      rw [List.filter_cons_of_neg hn]
      simp [List.idxOf_cons_ne, hna, hnb, ih]

theorem inFirstOrder_eraseDups (names : List String) : InFirstOrder names names.eraseDups := by
  match names with
  | [] => simp [InFirstOrder]
  | n :: names =>
    have hrest := inFirstOrder_eraseDups (names.filter fun m => !m == n)
    have hother : ∀ m ∈ (names.filter fun m => !m == n).eraseDups, n ≠ m := by
      intro m hm
      have hfilter := (List.mem_filter.1 (List.mem_eraseDups.1 hm)).2
      simpa [eq_comm (a := n)] using hfilter
    rw [List.eraseDups_cons, InFirstOrder, List.pairwise_cons]
    constructor
    · intro m hm
      simp [List.idxOf_cons_self, List.idxOf_cons_ne, hother m hm]
    · refine hrest.imp_of_mem fun {a b} ha hb hlt => ?_
      have hkept : ∀ m, n ≠ m → (!m == n) = true := fun m h => by simpa using h.symm
      rw [idxOf_filter_lt (hkept a (hother a ha)) (hkept b (hother b hb))] at hlt
      simpa [List.idxOf_cons_ne, hother a ha, hother b hb] using hlt
termination_by names.length
decreasing_by
  simp only [List.length_cons]
  exact Nat.lt_succ_of_le (List.length_filter_le ..)

end FirstOrder

/-- The columns fall into used and unused ones, each named once and in order, and the unused fields are
those without a column. -/
structure Mapping.Partitions (m : Mapping) (places : List FieldPath) (columns : List String) :
    Prop where
  nodup : (m.usedColumns ++ m.unusedColumns).Nodup
  covers : ∀ c, c ∈ columns ↔ c ∈ m.usedColumns ∨ c ∈ m.unusedColumns
  used_iff : ∀ c, c ∈ m.usedColumns ↔ c ∈ columns ∧ ∃ f ∈ places, f.field.columnName = c
  usedOrder : InFirstOrder columns m.usedColumns
  unusedOrder : InFirstOrder columns m.unusedColumns
  unusedFields : m.unusedFields =
    (places.filter fun f => !columns.contains f.field.columnName).map FieldPath.display

theorem Mapping.ofColumns_partitions (fields : List BoundField) (columns : List String) :
    (Mapping.ofColumns fields columns).Partitions (fields.map BoundField.place) columns where
  nodup := by
    refine List.nodup_append.2 ⟨nodup_usedColumns fields columns,
      (nodup_eraseDups columns).filter _, fun c hc c' hc' => ?_⟩
    rintro rfl
    have hread : (fields.any fun f => decide (f.column = c)) = true := (List.mem_filter.1 hc).2
    have hunread : (!fields.any fun f => decide (f.column = c)) = true := (List.mem_filter.1 hc').2
    simp [hread] at hunread
  covers c := by
    cases h : fields.any (·.column = c) <;> simp [ofColumns, List.mem_eraseDups, h]
  used_iff c := by
    rw [mem_usedColumns]
    simp only [List.any_eq_true, decide_eq_true_eq, List.mem_map]
    refine and_congr_right fun _ => ⟨?_, ?_⟩
    · rintro ⟨f, hf, hcolumn⟩
      exact ⟨f.place, ⟨f, hf, rfl⟩, hcolumn⟩
    · rintro ⟨_, ⟨f, hf, rfl⟩, hcolumn⟩
      exact ⟨f, hf, hcolumn⟩
  usedOrder := (inFirstOrder_eraseDups columns).filter _
  unusedOrder := (inFirstOrder_eraseDups columns).filter _
  unusedFields := by
    rw [List.filter_map, List.map_map]
    rfl

theorem exists_forall₂_iff {α β : Type} {R : α → β → Prop} {as : List α} :
    (∃ bs, List.Forall₂ R as bs) ↔ ∀ a ∈ as, ∃ b, R a b := by
  induction as with
  | nil => exact iff_of_true ⟨[], .nil⟩ (List.forall_mem_nil _)
  | cons a as ih =>
    rw [List.forall_mem_cons, ← ih]
    constructor
    · rintro ⟨_, h⟩
      obtain ⟨b, bs, hab, hbs, rfl⟩ := List.forall₂_cons_left_iff.1 h
      exact ⟨⟨b, hab⟩, bs, hbs⟩
    · rintro ⟨⟨b, hab⟩, bs, hbs⟩
      exact ⟨b :: bs, .cons hab hbs⟩

section Readable

variable {store : Store} {shape : Shape} {fields : List BoundField} {columns : List String}

theorem exists_bindFields_iff : (∃ fields, (bindFields store shape).Gives fields) ↔
    ∀ f ∈ shape.allFields, (store.reader? f.field.type f.field.storage?).isSome = true := by
  simp only [gives_bindFields_iff, exists_forall₂_iff, Option.isSome_iff_exists]
  refine forall₂_congr fun place _ => ⟨?_, ?_⟩
  · rintro ⟨f, -, hreader⟩
    exact ⟨f.reader, hreader⟩
  · rintro ⟨reader, hreader⟩
    exact ⟨⟨place, reader⟩, rfl, hreader⟩

/-- Fields can be read from columns when there is a column for one of them, and for each of them that
is not optional. -/
theorem readableFrom_iff (hplaces : fields.map BoundField.place = shape.allFields) :
    readableFrom fields (Mapping.ofColumns fields columns) = true ↔
      (shape.allFields = [] ∨ ∃ f ∈ shape.allFields, f.field.columnName ∈ columns) ∧
      ∀ f ∈ shape.allFields, f.field.columnName ∉ columns → f.field.type.isOption = true := by
  have hpartitions := hplaces ▸ Mapping.ofColumns_partitions fields columns
  have hsome : (Mapping.ofColumns fields columns).usedColumns ≠ [] ↔
      ∃ f ∈ shape.allFields, f.field.columnName ∈ columns := by
    simp only [ne_eq, List.eq_nil_iff_forall_not_mem, not_forall, not_not, hpartitions.used_iff]
    constructor
    · rintro ⟨_, hc, f, hf, rfl⟩
      exact ⟨f, hf, hc⟩
    · rintro ⟨f, hf, hc⟩
      exact ⟨_, hc, f, hf, rfl⟩
  have hnone : fields = [] ↔ shape.allFields = [] := by
    rw [← hplaces, List.map_eq_nil_iff]
  have hmissing : missingFields fields (Mapping.ofColumns fields columns) = [] ↔
      ∀ f ∈ shape.allFields, f.field.columnName ∉ columns → f.field.type.isOption = true := by
    have hused : ∀ f ∈ fields, f.column ∈ (Mapping.ofColumns fields columns).usedColumns ↔
        f.column ∈ columns := by
      intro f hf
      rw [hpartitions.used_iff]
      exact and_iff_left ⟨f.place, hplaces ▸ List.mem_map_of_mem hf, rfl⟩
    rw [← hplaces, missingFields, List.filter_eq_nil_iff, List.forall_mem_map]
    refine forall₂_congr fun f hf => ?_
    have hrequired : f.isRequired = !f.place.field.type.isOption := rfl
    rw [hrequired, Bool.and_eq_true, not_and, Bool.not_eq_true', Bool.not_eq_true',
      Bool.not_eq_false, ← Bool.not_eq_true, List.contains_iff_mem, hused f hf, not_imp_comm]
    rfl
  rw [← hnone, ← hsome, ← hmissing, or_comm]
  simp [readableFrom]

end Readable

/-- A record that is read from known columns partitions them, and it can be read exactly when all its
fields have readers, there is a column for one of them, if it has any, and for each of them that is
not optional, and all its relations can be resolved. -/
theorem resolve_recordRow_partitions (store : Store) (shape : Shape) (info : Sql.ResultInfo)
    (l : Logger) :
    (∀ row, ((RecordRow.resolve store shape (some info)).run.run l).1 = some row →
      row.mapping.Partitions shape.allFields info.columnNames) ∧
    (((RecordRow.resolve store shape (some info)).run.run l).1.isSome = true ↔
      (∀ f ∈ shape.allFields, (store.reader? f.field.type f.field.storage?).isSome = true) ∧
      (shape.allFields = [] ∨ ∃ f ∈ shape.allFields, f.field.columnName ∈ info.columnNames) ∧
      (∀ f ∈ shape.allFields, f.field.columnName ∉ info.columnNames →
        f.field.type.isOption = true) ∧
      ∀ declared ∈ shape.allRelations,
        ((RelatedRows.resolve store shape declared.1 declared.2).run.run l).1.isSome = true) := by
  constructor
  · intro row hrow
    have h := gives_recordRow_iff.1 ⟨l, hrow⟩
    rw [h.mapping, ← places_of_bindFields h.fields]
    exact Mapping.ofColumns_partitions row.fields info.columnNames
  · have hrelated : ∀ declared : List String × Relation,
        ((RelatedRows.resolve store shape declared.1 declared.2).run.run l).1.isSome = true ↔
          ∃ r, (resolveDeclared store shape declared).Gives r :=
      fun declared => Attempt.isSome_run_iff (steady_relatedRows ..) l
    simp only [hrelated, ← exists_forall₂_iff, ← exists_bindFields_iff]
    rw [Attempt.isSome_run_iff (steady_recordRow ..)]
    constructor
    · rintro ⟨row, hrow⟩
      have h := gives_recordRow_iff.1 hrow
      have hreadable := h.mapping ▸ h.readable
      rw [readableFrom_iff (places_of_bindFields h.fields)] at hreadable
      exact ⟨⟨_, h.fields⟩, hreadable.1, hreadable.2, _, h.relations⟩
    · rintro ⟨⟨fields, hfields⟩, hcolumn, hoptional, relations, hrelations⟩
      have hreadable := (readableFrom_iff (places_of_bindFields hfields)).2 ⟨hcolumn, hoptional⟩
      let row : RecordRow :=
        ⟨shape, fields, relations, Mapping.ofColumns fields info.columnNames, true⟩
      exact ⟨row, gives_recordRow_iff.2 ⟨rfl, hfields, hrelations, rfl, hreadable, rfl⟩⟩

/-- Contacts have a name, which may stand for the alias as well, and perhaps a phone. -/
def contactShape : Shape :=
  .mk (.simple "Contact")
    [{ name := "name", type := .string },
      { name := "alias", type := .optionOf .string, column := some "name" },
      { name := "phone", type := .optionOf .string }] [] []

def contactStore : Store where
  decls := {}
  maxHops := 2
  custom := []

/-- Both fields with the column of the name use it, whichever of two equal columns that is. -/
theorem resolve_contact_partitions :
    let info : Sql.ResultInfo := { columns := [⟨"name", none⟩, ⟨"age", none⟩, ⟨"name", none⟩] }
    ∃ row, ((RecordRow.resolve contactStore contactShape (some info)).run.run {}).1 = some row ∧
      row.mapping.Partitions contactShape.allFields info.columnNames ∧
      row.mapping = ⟨["name"], ["age"], ["phone"]⟩ := by
  intro info
  have hmapping : ((RecordRow.resolve contactStore contactShape (some info)).run.run {}).1.map
      RecordRow.mapping = some ⟨["name"], ["age"], ["phone"]⟩ := by
    decide +kernel
  obtain ⟨row, hrow, hread⟩ := Option.map_eq_some_iff.1 hmapping
  exact ⟨row, hrow,
    (resolve_recordRow_partitions contactStore contactShape info {}).1 row hrow, hread⟩

end DataAccess.Rows
