import DataAccess.Proofs.Rows.ResolvedRows

/-!
The tables that the rows of a result are read from on their own, whatever the query names. They are
told by the declarations: an entity that is read as a whole has its table, and a record has those of
all relations that are declared in it or in what is embedded in it.
-/

set_option autoImplicit false

namespace DataAccess.Rows

open Schema
open DataAccess.Convert

/-- The rows are read from a table on their own. A single column is read from none. -/
inductive Row.Accesses (d : Declarations) : Row → String → Prop
  | entity {row : EntityRow} {entity : Entity}
    (declared : d.entity? row.shape.type.name = some entity) :
    Accesses d (.entity row) entity.tableName
  | related {row : RecordRow} {place : List String} {relation : Relation} {entity : Entity}
    (declares : d.HasRelation row.shape.type place relation)
    (declared : d.entity? relation.entity = some entity) :
    Accesses d (.record row) entity.tableName

variable {store : Store}

theorem EntityRow.accesses_iff {name : String} {entity : Entity} {row : EntityRow}
    (hentity : store.decls.entity? name = some entity)
    (h : (EntityRow.resolve store entity).Gives row) {n : String} :
    (Row.entity row).Accesses store.decls n ↔ n = row.table := by
  obtain ⟨-, htable, hshape, -⟩ := entityRow_of_gives h
  have hname : entity.name = name := by simpa using List.find?_some hentity
  have htype : row.shape.type.name = name := by
    rw [Declarations.type_of_resolveShape hshape]
    exact hname
  constructor
  · intro h
    cases h with
    | entity hdeclared =>
      rw [htype] at hdeclared
      rw [htable, Option.some.inj (hentity.symm.trans hdeclared)]
  · rintro rfl
    rw [htable]
    exact .entity (htype ▸ hentity)

theorem RecordRow.accesses_iff {t : TypeExpr} {shape : Shape} {info : Option Sql.ResultInfo}
    {row : RecordRow} (hshape : store.decls.resolveShape t = .ok shape)
    (h : (RecordRow.resolve store shape info).Gives row) {n : String} :
    (Row.record row).Accesses store.decls n ↔ n ∈ row.relations.map RelatedRows.table := by
  obtain ⟨rfl, hrelations⟩ := related_of_gives h
  have htype := Declarations.type_of_resolveShape hshape
  rw [List.mem_map]
  constructor
  · intro h
    cases h with
    | related hdeclares hdeclared =>
      rw [htype] at hdeclares
      have hmem := (Declarations.mem_allRelations_iff hshape).2 hdeclares
      obtain ⟨r, hr, hresolve⟩ := exists_of_forall₂_left hrelations hmem
      obtain ⟨-, hsame, -, entity, hrows⟩ := relatedRows_of_gives hresolve
      have hentity := hrows.declared
      rw [hsame, hdeclared] at hentity
      exact ⟨r, hr, hrows.table.trans (congrArg _ (Option.some.inj hentity).symm)⟩
  · rintro ⟨r, hr, rfl⟩
    obtain ⟨⟨place, relation⟩, hmem, hresolve⟩ := exists_of_forall₂_right hrelations hr
    obtain ⟨-, rfl, -, entity, hrows⟩ := relatedRows_of_gives hresolve
    have hdeclares := (Declarations.mem_allRelations_iff hshape).1 hmem
    rw [← htype] at hdeclares
    rw [hrows.table]
    exact .related hdeclares hrows.declared

/-- The tables of rows that could be resolved are the ones that the declarations tell. -/
theorem Row.mem_tables_iff {t : TypeExpr} {query : Sql.Query} {row : Row}
    (h : (Row.resolve store t query).Gives row) {n : String} :
    n ∈ row.tables ↔ row.Accesses store.decls n := by
  obtain ⟨reader, rfl⟩ | ⟨entity, e, rfl, hentity, -, he⟩ | ⟨shape, info, r, rfl, hshape, hr⟩ :=
    row_of_gives h
  · exact iff_of_false List.not_mem_nil nofun
  · rw [EntityRow.accesses_iff hentity he, Row.tables, NameSet.mem_ofList, List.mem_singleton]
  · rw [RecordRow.accesses_iff hshape hr, Row.tables, NameSet.mem_ofList]

theorem Result.mem_tables_iff {t : TypeExpr} {query : Sql.Query} {result : Result}
    (h : (Result.resolve store t query).Gives result) {n : String} :
    n ∈ result.tables ↔ result.row.Accesses store.decls n := by
  obtain ⟨⟨form, rowType⟩, -, h⟩ := h.of_bind
  obtain ⟨row, hrow, h⟩ := h.of_bind
  rw [eq_of_gives_pure h]
  exact Row.mem_tables_iff hrow

end DataAccess.Rows
