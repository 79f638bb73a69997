import DataAccess.Diagnostics.Attempt
import DataAccess.Statement.QueryCode

/-!
Statements that insert, update or delete whole entities.
-/

set_option autoImplicit false

namespace DataAccess.Statement

open Code DataAccess.Convert Delivery Schema Sql

/-- A column of an entity that can be bound to a statement. -/
structure BoundColumn where
  place : FieldPath
  binder : ValueBinder
deriving DecidableEq, Repr

namespace BoundColumn

def name (c : BoundColumn) : String := c.place.field.columnName

/-- The expression for the value in the entity `owner`. -/
def value (c : BoundColumn) (owner : String) : String := owner ++ "." ++ c.place.display

/-- The column set to, or compared with, a placeholder. -/
def slot (c : BoundColumn) : String := Text.quoteName c.name ++ " = ?"

end BoundColumn

/-- A parameter that is an entity or a collection of entities. -/
structure EntityParam where
  name : String
  type : TypeExpr
  isCollection : Bool
  entity : String
  table : String
  columns : List BoundColumn
  primaryKey : List String
deriving DecidableEq, Repr

namespace EntityParam

/-- The columns of an entity; every one that cannot be bound is reported. -/
def bindColumns (store : Store) (entity : Entity) (shape : Shape) :
    Report (List (Option BoundColumn)) :=
  shape.allFields.mapM fun place => do
    match store.binder? place.field.type place.field.storage? with
    | some binder => return some (⟨place, binder⟩ : BoundColumn)
    | none =>
      Report.error (.cannotBindField entity.name place.display place.field.type.display)
      return none

/-- The primary key; every column that is not there is reported. -/
def checkKey (entity : Entity) (shape : Shape) : Report Bool := do
  let missing := entity.primaryKey.filter fun key => (shape.findByColumn? key).isNone
  missing.forM fun key => Report.error (.primaryKeyColumnMissing entity.name key)
  return missing.isEmpty

def resolve (store : Store) (p : Param) : Attempt EntityParam := do
  let isCollection := p.type.isVec
  let element := if isCollection then p.type.args.headD p.type else p.type
  let some entity := if element.args.isEmpty then store.decls.entity? element.name else none
    | Attempt.reject (.notAnEntityParameter p.name p.type.display)
  let shape ← Attempt.ofExcept (store.decls.resolveShape entity.record.type)
  let columns ← bindColumns store entity shape
  match columns.mapM id, ← checkKey entity shape with
  | some columns, true =>
    return {
      name := p.name, type := p.type, isCollection, entity := entity.name
      table := entity.tableName, columns, primaryKey := entity.primaryKey }
  | _, _ => failure

def keyColumns (p : EntityParam) : List BoundColumn :=
  p.primaryKey.filterMap fun key => p.columns.find? (·.name = key)

/-- The condition that finds the row of an entity. -/
def keyCondition (p : EntityParam) : String := " AND ".intercalate (p.keyColumns.map BoundColumn.slot)

/-- The text of the statement for one entity. -/
def sql (p : EntityParam) (kind : StatementKind) (onConflict : OnConflict) : String :=
  let table := Text.quoteName p.table
  match kind with
  | .insert =>
    "INSERT OR " ++ onConflict.sql ++ " INTO " ++ table ++ " (" ++
      ",".intercalate (p.columns.map fun c => Text.quoteName c.name) ++ ") VALUES (" ++
      ",".intercalate (p.columns.map fun _ => "?") ++ ")"
  | .update =>
    "UPDATE OR " ++ onConflict.sql ++ " " ++ table ++ " SET " ++
      ",".intercalate (p.columns.map BoundColumn.slot) ++ " WHERE " ++ p.keyCondition
  | _ => "DELETE FROM " ++ table ++ " WHERE " ++ p.keyCondition

/-- The columns that the placeholders of the statement take, in order. -/
def boundColumns (p : EntityParam) : StatementKind → List BoundColumn
  | .insert => p.columns
  | .update => p.columns ++ p.keyColumns
  | _ => p.keyColumns

end EntityParam

/-- A write of whole entities. -/
structure EntityWrite where
  kind : StatementKind
  onConflict : OnConflict
  params : List EntityParam

namespace EntityWrite

/-- Writes the preparation for one parameter. `acquired` holds the statements at hand by their texts;
an equal text shares its statement. -/
def prepareParam (w : EntityWrite) (acquired : List (String × String)) (p : EntityParam) :
    Emit (EntityStatement × List (String × String)) := do
  let sql := p.sql w.kind w.onConflict
  let (statement, acquired) ←
    match acquired.lookup sql with
    | some statement => pure (statement, acquired)
    | none => do
      let base := Text.asciiLower w.kind.name ++ "_stmt_of_" ++ Text.snakeCase p.entity
      let field ← Emit.sharedField (preparedField base sql)
      let statement ← Emit.fresh "stmt"
      Emit.statement ("let mut " ++ statement ++ " = " ++ (← Emit.receiver) ++ "." ++ field ++
        ".acquire()")
      pure (statement, (sql, statement) :: acquired)
  let item ← if p.isCollection then some <$> Emit.fresh "item" else pure none
  let bind ← Emit.fork do
    ((p.boundColumns w.kind).zipIdx 1).forM fun (column, index) =>
      column.binder.write statement (toString index) (column.value (item.getD p.name))
  return (⟨statement, p.name, item, bind⟩, acquired)

def prepareParams (w : EntityWrite) (acquired : List (String × String)) :
    List EntityParam → Emit (List EntityStatement)
  | [] => return []
  | p :: rest => do
    let (statement, acquired) ← w.prepareParam acquired p
    return statement :: (← w.prepareParams acquired rest)

/-- Writes the preparation for all parameters. -/
def prepare (w : EntityWrite) : Emit StatementSource :=
  return .entities (← w.prepareParams [] w.params)

end EntityWrite

end DataAccess.Statement
