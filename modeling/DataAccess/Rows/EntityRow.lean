import DataAccess.Code.RuntimeNames
import DataAccess.Rows.BoundField

/-!
Rows that hold a whole entity. The code that reads one is a shared method of the generated class.
-/

set_option autoImplicit false

namespace DataAccess.Rows

open Code Schema DataAccess.Convert

structure EntityRow where
  entity : String
  table : String
  shape : Shape
  fields : List BoundField
deriving Repr

namespace EntityRow

def resolve (store : Store) (entity : Entity) : Attempt EntityRow := do
  let shape ← Attempt.ofExcept (store.decls.resolveShape entity.record.type)
  return ⟨entity.name, entity.tableName, shape, ← bindFields store shape⟩

/-- Writes the reading of a row into a variable. -/
def writeRow (row : EntityRow) (cursor : String) : Emit String := do
  let indices ← row.fields.mapM fun f => CursorIndex.declare f f.isRequired cursor
  let values ← (row.fields.zip indices).mapM fun (f, index) => do
    return (f.display, ← f.writeRead (some index) cursor)
  let out ← Emit.fresh "entity"
  Emit.statement ("let " ++ out ++ " = " ++ recordLiteral values.reverse [] row.shape)
  return out

/-- The method that reads one row. -/
def cursorConverter (row : EntityRow) : ClassMembers.MethodSpec where
  base := "entity_cursor_converter_" ++ Text.snakeCase row.entity
  key := "entity_cursor_converter:" ++ row.entity ++ ":" ++
    ",".intercalate (row.shape.columns.map Schema.Field.identity)
  prepare name := do
    let (_, body) ← Emit.methodBody do
      let entity ← row.writeRow "_cursor"
      Emit.line ("Ok(" ++ entity ++ ")")
    let signature := "(&self, _cursor: &Cursor) -> " ++ RuntimeNames.resultOf row.shape.typeName
    return { name, signature, body }

/-- Writes the assignment of the current row to `out`. -/
def write (row : EntityRow) (out cursor : String) : Emit Unit := do
  let method ← Emit.sharedMethod row.cursorConverter
  Emit.statement (out ++ " = " ++ (← Emit.receiver) ++ "." ++ method ++ "(&" ++ cursor ++ ")?")

end EntityRow

end DataAccess.Rows
