import DataAccess.Proofs.Rows.Resolution
import DataAccess.Proofs.Schema.Embedding

/-!
What is known of the row of a record that could be resolved: its fields are those of the shape, the
columns that it uses are those that the result may have, and its related rows are keyed on the first
field of the shape with the parent column.
-/

set_option autoImplicit false

namespace DataAccess.Rows

open Schema
open DataAccess.Convert

section Resolved

variable {store : Store} {shape : Shape}

theorem exists_of_forall₂_right {α β : Type} {R : α → β → Prop} {as : List α} {bs : List β}
    {b : β} (h : List.Forall₂ R as bs) (hb : b ∈ bs) : ∃ a ∈ as, R a b :=
  exists_of_forall₂_left h.flip hb

theorem eq_map_some_of_mapM_id {α : Type} {os : List (Option α)} {as : List α}
    (h : os.mapM id = some as) : os = as.map some := by
  induction os generalizing as with
  | nil =>
    obtain rfl := Option.some.inj h
    rfl
  | cons o os ih =>
    simp only [List.mapM_cons, id, bind, Option.bind_eq_some_iff, pure, Option.some.injEq] at h
    obtain ⟨a, rfl, as, has, rfl⟩ := h
    rw [ih has, List.map_cons]

/-- Every field of a shape is bound, in order. -/
theorem places_of_bindFields {fields : List BoundField}
    (h : (bindFields store shape).Gives fields) :
    fields.map BoundField.place = shape.allFields := by
  unfold bindFields at h
  obtain ⟨bound, hbound, h⟩ := h.of_bind
  have hfields := eq_map_some_of_mapM_id (eq_some_of_gives_ofOption h)
  have hplaces := hbound.of_mapM
  rw [hfields, List.forall₂_map_right_iff] at hplaces
  rw [← List.map_id shape.allFields]
  refine (map_eq_map_of_forall₂ (hplaces.imp fun place f hf => ?_)).symm
  split at hf
  · rw [Option.some.inj (eq_of_gives_pure hf)]
    rfl
  · obtain ⟨_, -, hf⟩ := hf.of_bind
    exact absurd (eq_of_gives_pure hf) nofun

/-- The keys of related rows are the values of a parent field. -/
structure RelatedRows.KeyedOn (r : RelatedRows) (store : Store) (shape : Shape)
    (parent : FieldPath) : Prop where
  found : shape.findByColumn? r.parentColumn = some parent
  parentReader : store.reader? parent.field.type parent.field.storage? = some r.parentReader
  parentOptional : r.parentOptional = parent.field.type.isOption
  keyType : r.keyType = parent.field.type.nonNull
  keyReader : store.reader? r.keyType parent.field.storage? = some r.keyReader
  keyBinder : store.binder? r.keyType none = some r.keyBinder

/-- The related rows are those of an entity. -/
structure RelatedRows.RowsOf (r : RelatedRows) (store : Store) (entity : Entity) : Prop where
  declared : store.decls.entity? r.relation.entity = some entity
  table : r.table = entity.tableName
  elementType : r.elementType = r.relation.element
  element : ∃ entityShape, store.decls.resolveShape entity.record.type = .ok entityShape ∧
    (RelatedRows.resolveElement store r.relation entity entityShape).Gives r.element

theorem relatedRows_of_gives {path : List String} {relation : Relation} {r : RelatedRows}
    (h : (RelatedRows.resolve store shape path relation).Gives r) :
    r.path = path ∧ r.relation = relation ∧ (∃ parent, r.KeyedOn store shape parent) ∧
      ∃ entity, r.RowsOf store entity := by
  unfold RelatedRows.resolve at h
  split at h
  · rename_i entity hentity
    split at h
    · rename_i parent hparent
      split at h
      · obtain ⟨_, hreject, -⟩ := h.of_bind
        exact absurd hreject not_gives_reject
      · obtain ⟨entityShape, hshape, h⟩ := h.of_bind
        split at h
        · obtain ⟨_, hreject, -⟩ := h.of_bind
          exact absurd hreject not_gives_reject
        · dsimp only at h
          split at h
          · rename_i parentReader keyReader keyBinder hkeys
            obtain ⟨element, helement, h⟩ := h.of_bind
            simp only [bind, Option.bind_eq_some_iff, pure, Option.some.injEq,
              Prod.mk.injEq] at hkeys
            obtain ⟨_, hparentReader, _, hkeyReader, _, hkeyBinder, rfl, rfl, rfl⟩ := hkeys
            rw [eq_of_gives_pure h]
            exact ⟨rfl, rfl,
              ⟨parent, hparent, hparentReader, rfl, rfl, hkeyReader, hkeyBinder⟩,
              ⟨entity, hentity, rfl, rfl, entityShape, eq_ok_of_gives_ofExcept hshape, helement⟩⟩
          · exact absurd h not_gives_reject
    · exact absurd h not_gives_reject
  · exact absurd h not_gives_reject

/-- Related rows that are read as entities. -/
theorem entity_of_resolveElement {relation : Relation} {entity : Entity} {entityShape : Shape}
    {row : EntityRow}
    (h : (RelatedRows.resolveElement store relation entity entityShape).Gives (.entity row)) :
    relation.projection = none ∧ relation.element = entity.record.type ∧
      (EntityRow.resolve store entity).Gives row := by
  unfold RelatedRows.resolveElement at h
  dsimp only at h
  split at h
  · split at h
    · split at h
      · exact absurd (eq_of_gives_pure h) nofun
      · exact absurd h not_gives_reject
    · exact absurd h not_gives_reject
  · rename_i hprojection
    split at h
    · rename_i helement
      obtain ⟨found, hfound, h⟩ := h.of_bind
      obtain rfl := RelatedElement.entity.inj (eq_of_gives_pure h)
      exact ⟨hprojection, helement, hfound⟩
    · exact absurd h not_gives_reject

/-- Related rows of which one column is read. -/
theorem column_of_resolveElement {relation : Relation} {entity : Entity} {entityShape : Shape}
    {column : String} {reader : ValueReader}
    (h : (RelatedRows.resolveElement store relation entity entityShape).Gives
      (.column column reader)) :
    relation.projection = some column ∧
      ∃ place, entityShape.findByColumn? column = some place ∧
        store.reader? relation.element place.field.storage? = some reader := by
  unfold RelatedRows.resolveElement at h
  dsimp only at h
  split at h
  · rename_i projected hprojection
    split at h
    · rename_i place hplace
      split at h
      · rename_i found hfound
        obtain ⟨rfl, rfl⟩ := RelatedElement.column.inj (eq_of_gives_pure h)
        exact ⟨hprojection, place, hplace, hfound⟩
      · exact absurd h not_gives_reject
    · exact absurd h not_gives_reject
  · split at h
    · obtain ⟨_, -, h⟩ := h.of_bind
      exact absurd (eq_of_gives_pure h) nofun
    · exact absurd h not_gives_reject

theorem entityRow_of_gives {entity : Entity} {row : EntityRow}
    (h : (EntityRow.resolve store entity).Gives row) :
    row.entity = entity.name ∧ row.table = entity.tableName ∧
      store.decls.resolveShape entity.record.type = .ok row.shape ∧
      (bindFields store row.shape).Gives row.fields := by
  obtain ⟨shape, hshape, h⟩ := h.of_bind
  obtain ⟨fields, hfields, h⟩ := h.of_bind
  rw [eq_of_gives_pure h]
  exact ⟨rfl, rfl, eq_ok_of_gives_ofExcept hshape, hfields⟩

theorem of_gives_finishRecord {fields : List BoundField} {mapping : Mapping}
    {isChecked readable : Bool} {row : RecordRow}
    (h : (finishRecord store shape fields mapping isChecked readable).Gives row) :
    readable = true ∧ row.shape = shape ∧ row.fields = fields ∧ row.mapping = mapping ∧
      List.Forall₂ (fun declared r =>
        (RelatedRows.resolve store shape declared.1 declared.2).Gives r)
        shape.allRelations row.relations := by
  obtain ⟨relations, hrelations, h⟩ := h.of_bind
  cases readable with
  | false => exact absurd h not_gives_failure
  | true =>
    cases hrelated : relations.mapM id with
    | none =>
      simp only [hrelated] at h
      exact absurd h not_gives_failure
    | some related =>
      simp only [hrelated] at h
      obtain rfl := eq_of_gives_pure h
      have hsteps := hrelations.of_mapM
      rw [eq_map_some_of_mapM_id hrelated, List.forall₂_map_right_iff] at hsteps
      exact ⟨rfl, rfl, rfl, rfl, hsteps.imp fun _ _ hresolve => gives_of_lift hresolve⟩

/-- What a resolved row takes from its shape and from what is known of the result. -/
structure RecordRow.Follows (row : RecordRow) (shape : Shape) (info : Option Sql.ResultInfo) :
    Prop where
  places : row.fields.map BoundField.place = shape.allFields
  used_iff : ∀ f ∈ row.fields, f.column ∈ row.mapping.usedColumns ↔
    ∀ i, info = some i → f.column ∈ i.columnNames
  optional : ∀ f ∈ row.fields, f.column ∉ row.mapping.usedColumns → f.isRequired = false
  parent : ∀ r ∈ row.relations, ∃ parent, shape.findByColumn? r.parentColumn = some parent ∧
    r.parentOptional = parent.field.type.isOption

theorem parent_of_finishRecord {fields : List BoundField} {mapping : Mapping}
    {isChecked readable : Bool} {row : RecordRow}
    (h : (finishRecord store shape fields mapping isChecked readable).Gives row) :
    ∀ r ∈ row.relations, ∃ parent, shape.findByColumn? r.parentColumn = some parent ∧
      r.parentOptional = parent.field.type.isOption := by
  intro r hr
  obtain ⟨-, -, -, -, hrelations⟩ := of_gives_finishRecord h
  obtain ⟨_, -, hresolve⟩ := exists_of_forall₂_right hrelations hr
  obtain ⟨-, -, ⟨parent, hkeyed⟩, -⟩ := relatedRows_of_gives hresolve
  exact ⟨parent, hkeyed.found, hkeyed.parentOptional⟩

theorem follows_of_gives {info : Option Sql.ResultInfo} {row : RecordRow}
    (h : (RecordRow.resolve store shape info).Gives row) : row.Follows shape info := by
  cases info with
  | none =>
    rw [resolve_recordRow_unchecked] at h
    obtain ⟨fields, hfields, h⟩ := h.of_bind
    obtain ⟨-, -, rfl, hmapping, -⟩ := of_gives_finishRecord h
    have hused : ∀ f ∈ row.fields, f.column ∈ row.mapping.usedColumns := by
      intro f hf
      rw [hmapping]
      exact List.mem_map_of_mem hf
    exact {
      places := places_of_bindFields hfields
      used_iff := fun f hf => iff_of_true (hused f hf) nofun
      optional := fun f hf hunused => absurd (hused f hf) hunused
      parent := parent_of_finishRecord h }
  | some info =>
    rw [resolve_recordRow_checked] at h
    obtain ⟨fields, hfields, h⟩ := h.of_bind
    obtain ⟨readable, hreadable, h⟩ := h.of_bind
    obtain ⟨rfl, -, rfl, hmapping, -⟩ := of_gives_finishRecord h
    obtain ⟨l, hcheck⟩ := gives_of_lift hreadable
    rw [(yields_checkMapping ..).value, ← hmapping] at hcheck
    exact {
      places := places_of_bindFields hfields
      used_iff := fun f hf => by
        have hread : row.fields.any (·.column = f.column) = true :=
          List.any_eq_true.2 ⟨f, hf, by simp⟩
        rw [hmapping, Mapping.mem_usedColumns]
        simp [hread]
      optional := fun f hf hunused => by
        simp only [readableFrom, missingFields, Bool.and_eq_true, List.isEmpty_iff,
          List.filter_eq_nil_iff] at hcheck
        simpa [hunused] using hcheck.2 f hf
      parent := parent_of_finishRecord h }

/-- The related rows of a resolved row are those of the shape's relations, in order. -/
theorem related_of_gives {info : Option Sql.ResultInfo} {row : RecordRow}
    (h : (RecordRow.resolve store shape info).Gives row) : row.shape = shape ∧
      List.Forall₂ (fun declared r =>
        (RelatedRows.resolve store shape declared.1 declared.2).Gives r)
        shape.allRelations row.relations := by
  cases info with
  | none =>
    rw [resolve_recordRow_unchecked] at h
    obtain ⟨fields, -, h⟩ := h.of_bind
    obtain ⟨-, hshape, -, -, hrelations⟩ := of_gives_finishRecord h
    exact ⟨hshape, hrelations⟩
  | some info =>
    rw [resolve_recordRow_checked] at h
    obtain ⟨fields, -, h⟩ := h.of_bind
    obtain ⟨readable, -, h⟩ := h.of_bind
    obtain ⟨-, hshape, -, -, hrelations⟩ := of_gives_finishRecord h
    exact ⟨hshape, hrelations⟩

/-- A row that could be resolved is a column, an entity or a record. -/
theorem row_of_gives {t : TypeExpr} {query : Sql.Query} {row : Row}
    (h : (Row.resolve store t query).Gives row) :
    (∃ reader, row = .column reader) ∨
    (∃ entity e, row = .entity e ∧ store.decls.entity? t.name = some entity ∧
      entity.record.relations = [] ∧ (EntityRow.resolve store entity).Gives e) ∨
    ∃ shape info r, row = .record r ∧ store.decls.resolveShape t = .ok shape ∧
      (RecordRow.resolve store shape info).Gives r := by
  have hrecord : ∀ {info}, (do
      let shape ← Attempt.ofExcept (store.decls.resolveShape t)
      return Row.record (← RecordRow.resolve store shape info)).Gives row →
      ∃ shape info r, row = .record r ∧ store.decls.resolveShape t = .ok shape ∧
        (RecordRow.resolve store shape info).Gives r := by
    intro info h
    obtain ⟨shape, hshape, h⟩ := h.of_bind
    obtain ⟨r, hr, h⟩ := h.of_bind
    exact ⟨shape, info, r, eq_of_gives_pure h, eq_ok_of_gives_ofExcept hshape, hr⟩
  unfold Row.resolve at h
  dsimp only at h
  split at h
  · split at h
    · rename_i entity hentity
      split at h
      · rename_i hplain
        obtain ⟨e, he, h⟩ := h.of_bind
        simp only [Bool.and_eq_true, List.isEmpty_iff] at hplain
        exact .inr (.inl ⟨entity, e, eq_of_gives_pure h, hentity, hplain.2, he⟩)
      · exact .inr (.inr (hrecord h))
    · exact .inr (.inr (hrecord h))
  · obtain ⟨reader, -, h⟩ := h.of_bind
    exact .inl ⟨reader, eq_of_gives_pure h⟩

/-- The parent column of related rows is that of a field. -/
theorem RecordRow.Follows.parentField {info : Option Sql.ResultInfo} {row : RecordRow}
    (h : row.Follows shape info) {r : RelatedRows} (hr : r ∈ row.relations) :
    ∃ f ∈ row.fields, f.column = r.parentColumn ∧ r.parentOptional = !f.isRequired := by
  obtain ⟨parent, hparent, hoptional⟩ := h.parent r hr
  have hcolumn : parent.field.columnName = r.parentColumn := by
    simpa using List.find?_some hparent
  have hplace : parent ∈ row.fields.map BoundField.place :=
    h.places ▸ List.mem_of_find?_eq_some hparent
  obtain ⟨f, hf, rfl⟩ := List.mem_map.1 hplace
  refine ⟨f, hf, hcolumn, ?_⟩
  rw [hoptional, BoundField.isRequired, Field.isRequired, Bool.not_not]

end Resolved

end DataAccess.Rows
