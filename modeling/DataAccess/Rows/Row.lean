import DataAccess.Rows.RecordRow

/-!
How one row of a result is read.
-/

set_option autoImplicit false

namespace DataAccess.Rows

open Code Schema DataAccess.Convert

inductive Row where
  | column (reader : ValueReader)
  | entity (row : EntityRow)
  | record (row : RecordRow)
deriving Repr

namespace Row

/-- The type of a row. -/
def type : Row → TypeExpr
  | column reader => reader.type
  | entity row => row.shape.type
  | record row => row.shape.type

def record? : Row → Option RecordRow
  | record row => some row
  | _ => none

/-- The tables that reading the rows touches on its own. -/
def tables : Row → NameSet
  | column _ => NameSet.empty
  | entity row => NameSet.ofList [row.table]
  | record row => NameSet.ofList (row.relations.map RelatedRows.table)

def hasRelations : Row → Bool
  | record row => !row.relations.isEmpty
  | _ => false

/-- Writes what precedes the first row. -/
def writePrologue (row : Row) (cursor : String) : Emit RowState :=
  match row with
  | record row => row.writePrologue cursor
  | _ => return {}

/-- Writes the assignment of the current row to `out`. -/
def write (row : Row) (out cursor : String) (state : RowState) : Emit Unit :=
  match row with
  | column reader => reader.write out cursor "0"
  | entity row => row.write out cursor
  | record row => row.write out cursor state

/-- The reported columns, unless the query was rejected. -/
def usableInfo (query : Sql.Query) : Option Sql.ResultInfo :=
  query.resultInfo.filter (·.error.isNone)

/-- How the rows of a query are read as values of type `t`. An entity without relations is read as a
whole while the columns of the result are unknown. -/
def resolve (store : Store) (t : TypeExpr) (query : Sql.Query) : Attempt Row := do
  let info := usableInfo query
  if store.decls.isRecordType t then
    match store.decls.entity? t.name with
    | some e =>
      if info.isNone && e.record.relations.isEmpty then
        return .entity (← EntityRow.resolve store e)
    | none => pure ()
    let shape ← Attempt.ofExcept (store.decls.resolveShape t)
    return .record (← RecordRow.resolve store shape info)
  else
    let affinity := do (← (← info).columns.head?).affinity
    return .column (← Attempt.ofOption (store.reader? t affinity))

end Row

end DataAccess.Rows
