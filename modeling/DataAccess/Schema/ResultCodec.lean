import DataAccess.Schema.Codec
import DataAccess.Sql.Query

/-!
Results of queries as data trees.
-/

set_option autoImplicit false

namespace DataAccess.Sql

open Data

def Column.ofValue? (v : Value) : Option Column := do
  let ms ← Members.of? ["name", "affinity"] v
  return {
    name := ← ms.required? "name" Value.string?
    affinity := ← ms.nullable? "affinity" (Value.oneOf? Affinity.all Affinity.name) }

def Column.toValue (c : Column) : Value :=
  .object [("name", .string c.name),
    ("affinity", (c.affinity.map fun a => Value.string a.name).getD .null)]

namespace ResultInfo

def ofValue? (v : Value) : Option ResultInfo := do
  let ms ← Members.of? ["columns", "error"] v
  return {
    columns := ← ms.required? "columns" (Value.listOf? Column.ofValue?)
    error := ← ms.nullable? "error" Value.string? }

def toValue (r : ResultInfo) : Value :=
  .object [("columns", .list (r.columns.map Column.toValue)),
    ("error", (r.error.map Value.string).getD .null)]

end ResultInfo

end DataAccess.Sql
