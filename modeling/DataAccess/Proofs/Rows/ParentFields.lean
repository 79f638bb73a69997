import DataAccess.Proofs.Rows.ResolvedRows

/-!
The parent fields of relations that are declared in embedded records. The columns of the embedded
fields carry the lead of the embedding, but a relation names its parent column as it was declared,
and the field is looked up among those of the whole shape.
-/

set_option autoImplicit false

namespace DataAccess

open Schema

namespace Schema

namespace Shape

theorem allRelations_eq (s : Shape) : ∃ rest,
    s.allRelations = s.relations.map (fun r => ([r.member], r)) ++ rest := by
  cases s with
  | mk type fields relations embedded => exact ⟨embeddedRelations [] embedded, rfl⟩

end Shape

theorem relations_of_resolveShape {d : Declarations} {t : TypeExpr} {record : Record} {s : Shape}
    (hrecord : d.recordOf? t = some record) (hs : d.resolveShape t = .ok s) :
    s.relations = record.relations := by
  obtain ⟨found, embedded, hfound, -, rfl⟩ := Declarations.shapeWithin_eq_ok_iff.1 hs
  rw [Option.some.inj (hrecord.symm.trans hfound)]
  rfl

end Schema

namespace Rows

open DataAccess.Convert

/-- The field that a relation of an embedded record means stands in the outer shape. The look-up
finds it when the embedding leaves its column as it is, and no field before it has that column. -/
theorem findByColumn?_embedded_iff {shape own : Shape} {path : List String} {lead column : String}
    (hfields : own.allFields.map (FieldPath.within path lead) <:+: shape.allFields)
    {f : FieldPath} (hf : own.findByColumn? column = some f) :
    shape.findByColumn? column = some (f.within path lead) ↔
      lead = "" ∧ ∀ g ∈ shape.before (f.within path lead), g.field.columnName ≠ column := by
  obtain ⟨hcolumn, hmem, -⟩ := Shape.findByColumn?_eq_some_iff.1 hf
  have hplace : f.within path lead ∈ shape.allFields :=
    hfields.subset (List.mem_map_of_mem hmem)
  have hlead : lead ++ column = column ↔ lead = "" := by
    constructor
    · intro h
      exact String.append_left_inj column |>.1 (h.trans String.empty_append.symm)
    · rintro rfl
      exact String.empty_append
  rw [Shape.findByColumn?_eq_some_iff, FieldPath.column_within, hcolumn, hlead]
  exact ⟨fun ⟨h, _, hfirst⟩ => ⟨h, hfirst⟩, fun ⟨h, hfirst⟩ => ⟨h, hplace, hfirst⟩⟩

/-- The parent field of a relation that is declared in an embedded record. It is the field that the
record itself would take exactly when no lead stands before the embedded columns, and no field
before it has the parent column. -/
theorem parentField_of_embedded {store : Store} {t u : TypeExpr} {shape : Shape}
    {path : List String} {lead : String} {record : Record} {relation : Relation} {r : RelatedRows}
    (hshape : store.decls.resolveShape t = .ok shape)
    (hembeds : store.decls.Embeds t path lead u)
    (hrecord : store.decls.recordOf? u = some record) (hrelation : relation ∈ record.relations)
    (h : (RelatedRows.resolve store shape (path ++ [relation.member]) relation).Gives r) :
    (path ++ [relation.member], relation) ∈ shape.allRelations ∧
    ∃ own parent, store.decls.resolveShape u = .ok own ∧ r.KeyedOn store shape parent ∧
      ((∃ f, own.findByColumn? relation.parentColumn = some f ∧ parent = f.within path lead) ↔
        lead = "" ∧ ∃ f, own.findByColumn? relation.parentColumn = some f ∧
          ∀ g ∈ shape.before (f.within path lead), g.field.columnName ≠ relation.parentColumn) := by
  obtain ⟨own, hown, hfields, hrelations⟩ := hembeds.ownShape hshape
  obtain ⟨-, hkept, ⟨parent, hkeyed⟩, -⟩ := relatedRows_of_gives h
  have hfound : shape.findByColumn? relation.parentColumn = some parent := hkept ▸ hkeyed.found
  constructor
  · obtain ⟨rest, hown'⟩ := own.allRelations_eq
    have hmem : ([relation.member], relation) ∈ own.allRelations := by
      rw [hown', relations_of_resolveShape hrecord hown]
      exact List.mem_append_left _ (List.mem_map_of_mem hrelation)
    exact hrelations.subset (List.mem_map_of_mem hmem)
  · refine ⟨own, parent, hown, hkeyed, ?_⟩
    constructor
    · rintro ⟨f, hf, rfl⟩
      obtain ⟨hlead, hfirst⟩ := (findByColumn?_embedded_iff hfields hf).1 hfound
      exact ⟨hlead, f, hf, hfirst⟩
    · rintro ⟨hlead, f, hf, hfirst⟩
      have hmeant := (findByColumn?_embedded_iff hfields hf).2 ⟨hlead, hfirst⟩
      exact ⟨f, hf, Option.some.inj (hfound.symm.trans hmeant)⟩

/-- The city of an address. -/
def cityRelation : Relation where
  member := "city"
  type := .optionOf (.simple "City")
  entity := "City"
  parentColumn := "city_id"
  entityColumn := "id"

def workEmbedded : Embedded where
  member := "work"
  type := .simple "Address"
  lead := "work_"

def addressRecord : Record where
  name := "Address"
  fields := [{ name := "street", type := .string }, { name := "city_id", type := .simple "i64" }]
  relations := [cityRelation]

/-- Users live in a city and work at an address. -/
def userRecord : Record where
  name := "User"
  fields := [{ name := "id", type := .simple "i64" }, { name := "city_id", type := .simple "i64" }]
  embedded := [workEmbedded]

def userStore : Store where
  decls := {
    entities := [{ record := { name := "City", fields := [
      { name := "id", type := .simple "i64" }, { name := "name", type := .string }] } }]
    records := [addressRecord, userRecord] }
  maxHops := 2
  custom := []

def userShape : Shape :=
  .mk (.simple "User") userRecord.fields []
    [("work", .mk (.simple "Address")
      [{ name := "street", type := .string, column := some "work_street" },
        { name := "city_id", type := .simple "i64", column := some "work_city_id" }]
      [cityRelation] [])]

/-- The city of the address where a user works is taken to be the one where the user lives. -/
theorem parentField_user : ∃ r parent,
    (RelatedRows.resolve userStore userShape ["work", "city"] cityRelation).Gives r ∧
    r.KeyedOn userStore userShape parent ∧ parent.path = ["city_id"] ∧
    ∃ own, userStore.decls.resolveShape (.simple "Address") = .ok own ∧
      ¬∃ f, own.findByColumn? "city_id" = some f ∧ parent = f.within ["work"] "work_" := by
  have hshape : userStore.decls.resolveShape (.simple "User") = .ok userShape := rfl
  have hinside : userStore.decls.Embeds (.simple "User") ["work"] ("work_" ++ "")
      (.simple "Address") :=
    .inside (show userStore.decls.recordOf? (.simple "User") = some userRecord by decide +kernel)
      (show workEmbedded ∈ userRecord.embedded by decide) (.here _)
  rw [String.append_empty] at hinside
  have hresolved : ((RelatedRows.resolve userStore userShape ["work", "city"]
      cityRelation).run.run {}).1.isSome = true := by
    decide +kernel
  obtain ⟨r, hr⟩ := Option.isSome_iff_exists.1 hresolved
  obtain ⟨-, own, parent, hown, hkeyed, hiff⟩ := parentField_of_embedded hshape hinside
    (show userStore.decls.recordOf? (.simple "Address") = some addressRecord by decide +kernel)
    (show cityRelation ∈ addressRecord.relations by decide) ⟨{}, hr⟩
  have hfirst : userShape.findByColumn? "city_id" = some ⟨["city_id"], userRecord.fields[1]⟩ := by
    decide +kernel
  have hcolumn : r.parentColumn = "city_id" := by
    obtain ⟨-, hrelation, -⟩ := relatedRows_of_gives ⟨{}, hr⟩
    rw [RelatedRows.parentColumn, hrelation]
    rfl
  have hparent := hkeyed.found
  rw [hcolumn, hfirst] at hparent
  refine ⟨r, parent, ⟨{}, hr⟩, hkeyed, ?_, own, hown, fun hmeant => ?_⟩
  · rw [← Option.some.inj hparent]
  · exact absurd (hiff.1 hmeant).1 (by decide)

end Rows

end DataAccess
