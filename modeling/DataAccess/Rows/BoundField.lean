import DataAccess.Convert.Store
import DataAccess.Diagnostics.Attempt
import DataAccess.Text.Literal

/-!
The fields of a record with their readers, the cursor indices they are read from, and the expression
that builds a record out of what was read.
-/

set_option autoImplicit false

namespace DataAccess.Rows

open Code Schema DataAccess.Convert

/-- A field that can be read from a cursor. -/
structure BoundField where
  place : FieldPath
  reader : ValueReader
deriving DecidableEq, Repr

namespace BoundField

def column (f : BoundField) : String := f.place.field.columnName

def isRequired (f : BoundField) : Bool := f.place.field.isRequired

def display (f : BoundField) : String := f.place.display

end BoundField

/-- Readers for all fields of a shape; every field without one is reported. -/
def bindFields (store : Store) (shape : Shape) : Attempt (List BoundField) := do
  let bound ← shape.allFields.mapM fun place => do
    match store.reader? place.field.type place.field.storage? with
    | some reader => return some ⟨place, reader⟩
    | none =>
      Report.error (.cannotReadField shape.typeName place.display place.field.type.display)
      return none
  Attempt.ofOption (bound.mapM id)

/-- A variable that holds the index of a column. -/
inductive CursorIndex where
  | known (name : String)
  /-- Holds nothing when the cursor lacks the column. -/
  | optional (name : String)
deriving DecidableEq, Repr

/-- Writes the declaration of a column's index. -/
def CursorIndex.declare (f : BoundField) (required : Bool) (cursor : String) :
    Emit CursorIndex := do
  let name ← Emit.fresh ("cursor_index_of_" ++ f.place.fragment)
  let arguments := "(&" ++ cursor ++ ", " ++ Text.literal f.column ++ ")"
  if required then
    Emit.statement ("let " ++ name ++ " = db_util::column_index_or_throw" ++ arguments ++ "?")
    return .known name
  else
    Emit.statement ("let " ++ name ++ " = db_util::column_index" ++ arguments)
    return .optional name

/-- Writes the reading of a field into a variable of its own. A field without an index is absent. -/
def BoundField.writeRead (f : BoundField) (index : Option CursorIndex) (cursor : String) :
    Emit String := do
  let name ← Emit.fresh ("tmp_" ++ f.place.fragment)
  Emit.statement ("let " ++ name ++ ": " ++ f.place.field.type.display)
  match index with
  | some (.known index) => f.reader.write name cursor index
  | some (.optional index) =>
    let present ← Emit.fresh "index"
    let read ← Emit.fork (f.reader.write name cursor present)
    Emit.enter ("if let Some(" ++ present ++ ") = " ++ index)
    Emit.splice read
    Emit.next "else"
    Emit.statement (name ++ " = None")
    Emit.leave
  | none => Emit.statement (name ++ " = None")
  return name

/-- Variables by the display path of the member they hold; of two for one path the first counts. -/
abbrev Values := List (String × String)

/-- The initialisers of the members that have a value. -/
def initialisers (values : Values) (path : List String) (members : List String) : List String :=
  members.filterMap fun member =>
    (values.lookup (".".intercalate (path ++ [member]))).map fun value => member ++ ": " ++ value

mutual

/-- The expression that builds the record under `path`. -/
def recordLiteral (values : Values) (path : List String) : Shape → String
  | .mk type fields relations embedded =>
    let parts := initialisers values path (fields.map Schema.Field.name) ++
      embeddedLiterals values path embedded ++
      initialisers values path (relations.map Relation.member)
    type.display ++ " \x7b " ++ ", ".intercalate parts ++ " \x7d"

def embeddedLiterals (values : Values) (path : List String) :
    List (String × Shape) → List String
  | [] => []
  | (member, shape) :: rest =>
    (member ++ ": " ++ recordLiteral values (path ++ [member]) shape) ::
      embeddedLiterals values path rest

end

end DataAccess.Rows
