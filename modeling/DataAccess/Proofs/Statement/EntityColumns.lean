import DataAccess.Proofs.Rows.ResolvedRows
import DataAccess.Statement.EntityWrite

/-!
What is known of a parameter that could be resolved: its columns are the fields of its entity, and
the key of the entity is found among them.
-/

set_option autoImplicit false

namespace DataAccess.Statement

open Schema
open DataAccess.Convert

namespace EntityParam

variable {store : Store} {entity : Entity} {shape : Shape}

/-- The type of the entities that a parameter holds. -/
def elementType (q : Param) : TypeExpr := if q.type.isVec then q.type.args.headD q.type else q.type

/-- The parameter was resolved with the entity that it holds and the shape of that. -/
structure ResolvedFrom (p : EntityParam) (store : Store) (q : Param) (entity : Entity)
    (shape : Shape) : Prop where
  name : p.name = q.name
  isCollection : p.isCollection = q.type.isVec
  declared : store.decls.entity? (elementType q).name = some entity
  shapeOf : store.decls.resolveShape entity.record.type = .ok shape
  table : p.table = entity.tableName
  places : p.columns.map BoundColumn.place = shape.allFields
  binders : ∀ c ∈ p.columns, store.binder? c.place.field.type c.place.field.storage? = some c.binder
  primaryKey : p.primaryKey = entity.primaryKey
  keys : ∀ key ∈ entity.primaryKey, (shape.findByColumn? key).isSome

/-- The column of a field, if there is a binder for it. -/
def columnOf? (store : Store) (place : FieldPath) : Option BoundColumn :=
  (store.binder? place.field.type place.field.storage?).map fun binder => ⟨place, binder⟩

theorem finds_bindColumns (store : Store) (entity : Entity) (shape : Shape) :
    Finds (bindColumns store entity shape) (shape.allFields.map (columnOf? store)) fun anchor =>
      shape.allFields.flatMap fun place => if (columnOf? store place).isSome then [] else
        [⟨.error, .cannotBindField entity.name place.display place.field.type.display, anchor⟩] := by
  refine Finds.mapM (fun place => ?_) _
  unfold columnOf?
  cases store.binder? place.field.type place.field.storage? with
  | some binder => exact finds_pure _
  | none => exact (finds_error _).bind (finds_pure _)

theorem finds_checkKey (entity : Entity) (shape : Shape) :
    ∃ found, Finds (checkKey entity shape)
      (entity.primaryKey.filter fun key => (shape.findByColumn? key).isNone).isEmpty found :=
  ⟨_, (Finds.forM (fun _ => finds_error _) _).bind (finds_pure _)⟩

theorem columns_of_mapM {columns : List BoundColumn}
    (h : (shape.allFields.map (columnOf? store)).mapM id = some columns) :
    columns.map BoundColumn.place = shape.allFields ∧
      ∀ c ∈ columns, store.binder? c.place.field.type c.place.field.storage? = some c.binder := by
  have hsome := Rows.eq_map_some_of_mapM_id h
  have hcolumn : ∀ {place c}, columnOf? store place = some c → c.place = place ∧
      store.binder? c.place.field.type c.place.field.storage? = some c.binder := by
    intro place c hc
    obtain ⟨binder, hbinder, rfl⟩ := Option.map_eq_some_iff.1 hc
    exact ⟨rfl, hbinder⟩
  clear h
  generalize shape.allFields = places at hsome
  induction places generalizing columns with
  | nil =>
    obtain rfl : columns = [] := by simpa using hsome.symm
    exact ⟨rfl, List.forall_mem_nil _⟩
  | cons place places ih =>
    cases columns with
    | nil => cases hsome
    | cons c columns =>
      obtain ⟨hc, hrest⟩ := List.cons.inj hsome
      obtain ⟨hplaces, hbinders⟩ := ih hrest
      obtain ⟨hplace, hbinder⟩ := hcolumn hc
      exact ⟨by rw [List.map_cons, hplace, hplaces], List.forall_mem_cons.2 ⟨hbinder, hbinders⟩⟩

theorem resolvedFrom_of_gives {q : Param} {p : EntityParam}
    (h : (EntityParam.resolve store q).Gives p) :
    ∃ entity shape, p.ResolvedFrom store q entity shape := by
  unfold EntityParam.resolve at h
  extract_lets isCollection element at h
  split at h
  · rename_i entity hentity
    obtain ⟨shape, hshape, h⟩ := h.of_bind
    obtain ⟨columns, hcolumns, h⟩ := h.of_bind
    obtain ⟨checked, hchecked, h⟩ := h.of_bind
    have hdeclared : store.decls.entity? (elementType q).name = some entity := by
      change (if element.args.isEmpty then store.decls.entity? element.name else none) = _ at hentity
      split at hentity
      · exact hentity
      · cases hentity
    obtain ⟨l, rfl⟩ := gives_of_lift hcolumns
    obtain ⟨found, hfinds⟩ := finds_checkKey entity shape
    obtain ⟨l', rfl⟩ := gives_of_lift hchecked
    rw [(finds_bindColumns store entity shape).run, hfinds.run] at h
    split at h
    · rename_i columns hmap hempty
      obtain ⟨hplaces, hbinders⟩ := columns_of_mapM hmap
      rw [eq_of_gives_pure h]
      refine ⟨entity, shape, rfl, rfl, hdeclared, eq_ok_of_gives_ofExcept hshape, rfl, hplaces,
        hbinders, rfl, fun key hkey => ?_⟩
      have hnil := List.filter_eq_nil_iff.1 (List.isEmpty_iff.1 hempty) key hkey
      simpa [Option.isSome_iff_ne_none] using hnil
    · exact absurd h not_gives_failure
  · exact absurd h not_gives_reject

namespace ResolvedFrom

variable {p : EntityParam} {q : Param}

/-- The first column of a name is that of the first field. -/
theorem find?_columns (h : p.ResolvedFrom store q entity shape) (key : String) :
    (p.columns.find? (·.name = key)).map BoundColumn.place = shape.findByColumn? key := by
  rw [Shape.findByColumn?, ← h.places, List.find?_map]
  rfl

/-- There is one column for each column of the key, in the order of the key. -/
theorem keyColumns (h : p.ResolvedFrom store q entity shape) :
    p.keyColumns.map (fun c => some c.place) = entity.primaryKey.map shape.findByColumn? ∧
      p.keyColumns.map BoundColumn.name = entity.primaryKey := by
  have hkeys := h.keys
  rw [EntityParam.keyColumns, h.primaryKey]
  generalize entity.primaryKey = keys at hkeys
  induction keys with
  | nil => exact ⟨rfl, rfl⟩
  | cons key keys ih =>
    obtain ⟨hkey, hrest⟩ := List.forall_mem_cons.1 hkeys
    obtain ⟨hplaces, hnames⟩ := ih hrest
    have hfound := h.find?_columns key
    obtain ⟨c, hc⟩ : ∃ c, p.columns.find? (·.name = key) = some c := by
      rw [← hfound, Option.isSome_map] at hkey
      exact Option.isSome_iff_exists.1 hkey
    rw [hc] at hfound
    have hname : c.name = key := by simpa using List.find?_some hc
    rw [show List.filterMap _ (key :: keys) = _ :: _ from List.filterMap_cons_some hc]
    refine ⟨?_, ?_⟩
    · rw [List.map_cons, List.map_cons, hplaces, ← hfound]
      rfl
    · rw [List.map_cons, hname, hnames]

/-- The fields that are bound: all of them, in their order, for what is written, and behind them
those of the key for what is found. -/
theorem boundColumns (h : p.ResolvedFrom store q entity shape) :
    ∃ keys : List FieldPath, keys.map some = entity.primaryKey.map shape.findByColumn? ∧
      (p.boundColumns .insert).map BoundColumn.place = shape.allFields ∧
      (p.boundColumns .update).map BoundColumn.place = shape.allFields ++ keys ∧
      (p.boundColumns .delete).map BoundColumn.place = keys := by
  refine ⟨p.keyColumns.map BoundColumn.place, ?_, h.places, ?_, rfl⟩
  · rw [List.map_map]
    exact h.keyColumns.1
  · rw [EntityParam.boundColumns, List.map_append, h.places]

end ResolvedFrom

end EntityParam

end DataAccess.Statement
