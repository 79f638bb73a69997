import DataAccess.Rows.RelatedRows
import DataAccess.Sql.Query

/-!
Rows that hold the fields of a record, in any order and with other columns among them, and the
related rows of its relations.
-/

set_option autoImplicit false

namespace DataAccess.Rows

open Code Schema DataAccess.Convert

/-- Which columns of a result and which fields of a record meet. -/
structure Mapping where
  usedColumns : List String := []
  unusedColumns : List String := []
  unusedFields : List String := []
deriving DecidableEq, Repr

namespace Mapping

/-- The mapping of a result with known columns: a column is used when a field reads it. -/
def ofColumns (fields : List BoundField) (columns : List String) : Mapping :=
  let distinct := columns.eraseDups
  let isRead (column : String) := fields.any (·.column = column)
  { usedColumns := distinct.filter isRead
    unusedColumns := distinct.filter (!isRead ·)
    unusedFields := (fields.filter (!columns.contains ·.column)).map BoundField.display }

/-- The mapping of an unknown result: every field is taken to be there. -/
def ofFields (fields : List BoundField) : Mapping := { usedColumns := fields.map BoundField.column }

def isExact (m : Mapping) : Bool := m.unusedColumns.isEmpty && m.unusedFields.isEmpty

end Mapping

structure RecordRow where
  shape : Shape
  fields : List BoundField
  relations : List RelatedRows
  mapping : Mapping
  /-- Whether the columns of the result are known. -/
  isChecked : Bool
deriving Repr

namespace RecordRow

/-- Reports what is wrong between a result and the fields that are read from it. Returns whether the
row can be read. -/
def checkMapping (record : String) (fields : List BoundField) (info : Sql.ResultInfo)
    (mapping : Mapping) : Report Bool := do
  if info.hasDuplicateColumns then
    Report.warn .duplicateResultColumns (.duplicateColumns info.duplicateColumns.toList)
  if mapping.usedColumns.isEmpty && !fields.isEmpty then
    Report.error (.noResultAdapter record)
    return false
  let missing := fields.filter fun f => f.isRequired && !mapping.usedColumns.contains f.column
  if !missing.isEmpty then
    Report.error (.missingRequiredFields record (missing.map BoundField.display) info.columnNames)
    return false
  if !mapping.isExact then
    Report.warn .cursorMismatch (.cursorMismatch record mapping.unusedColumns info.columnNames
      mapping.unusedFields (fields.map BoundField.display))
  return true

def resolve (store : Store) (shape : Shape) (info : Option Sql.ResultInfo) : Attempt RecordRow := do
  let fields ← bindFields store shape
  let mapping :=
    match info with
    | some info => Mapping.ofColumns fields info.columnNames
    | none => Mapping.ofFields fields
  let readable ←
    match info with
    | some info => checkMapping shape.typeName fields info mapping
    | none => pure true
  let relations ← shape.allRelations.mapM fun (path, relation) =>
    (RelatedRows.resolve store shape path relation).run
  match readable, relations.mapM id with
  | true, some relations => return { shape, fields, relations, mapping, isChecked := info.isSome }
  | _, _ => failure

def isRelationParent (row : RecordRow) (column : String) : Bool :=
  row.relations.any (·.parentColumn = column)

end RecordRow

/-- The variables that are set up before the first row is read. -/
structure RowState where
  /-- Indices by column; of two for one column the first counts. -/
  indices : List (String × CursorIndex) := []
  /-- The maps of related rows, one for each relation. -/
  maps : List String := []
deriving DecidableEq, Repr

/-- The index of a column that is there for certain. -/
def RowState.knownIndex? (s : RowState) (column : String) : Option String :=
  match s.indices.lookup column with
  | some (.known name) => some name
  | _ => none

namespace RecordRow

/-- The index of the column that a relation's key is read from. -/
def keyIndex (s : RowState) (r : RelatedRows) : String := (s.knownIndex? r.parentColumn).getD "0"

/-- Writes what precedes the first row. -/
def writePrologue (row : RecordRow) (cursor : String) : Emit RowState := do
  let read := row.fields.filter fun f => row.mapping.usedColumns.contains f.column
  let indices ← read.mapM fun f => do
    let required := row.isChecked || f.isRequired || row.isRelationParent f.column
    return (f.column, ← CursorIndex.declare f required cursor)
  let state : RowState := { indices := indices.reverse }
  let maps ← row.relations.mapM fun r => r.writePrefetch cursor (keyIndex state r)
  return { state with maps }

/-- Writes the assignment of the current row to `out`. -/
def write (row : RecordRow) (out cursor : String) (state : RowState) : Emit Unit := do
  let fields ← row.fields.mapM fun f => do
    return (f.display, ← f.writeRead (state.indices.lookup f.column) cursor)
  let related ← (row.relations.zip state.maps).mapM fun (r, map) => do
    return (".".intercalate r.path, ← r.writeLookup map cursor (keyIndex state r))
  let values := (fields ++ related).reverse
  Emit.statement (out ++ " = " ++ recordLiteral values [] row.shape)

end RecordRow

end DataAccess.Rows
