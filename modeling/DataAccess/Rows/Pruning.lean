import DataAccess.Rows.Row

/-!
Queries are narrowed down to the columns that a record reads: the query becomes the source of a
selection of those columns.
-/

set_option autoImplicit false

namespace DataAccess.Rows

open Sql

/-- The selection of columns from a query. -/
def selectionFrom (columns : List String) (query : String) : String :=
  "SELECT " ++ ", ".intercalate (columns.map Text.quoteName) ++ " FROM (" ++ query ++ ")"

/-- The columns to keep, when a query returns others besides them. Rows with repeated columns are
left alone. -/
def keptColumns? (query : Query) (row : Row) : Option (List String) := do
  let record ← row.record?
  let info ← query.resultInfo
  if info.error.isSome || info.hasDuplicateColumns then none
  if record.mapping.unusedColumns.isEmpty then none
  return record.mapping.usedColumns

/-- The narrowed query, read with the statement grammar `grammar`; a query that does not read
without errors once it is narrowed stays as it is. -/
def pruneWith (grammar : List Char → Option Summary) (query : Query) (row : Row) : Query :=
  match keptColumns? query row with
  | none => query
  | some columns =>
    let pruned := Query.parseWith grammar (selectionFrom columns query.original)
    if pruned.hasErrors then query else { pruned with rewrittenFrom := some query.original }

/-- A step that may replace a query by one that reads the same rows. -/
inductive Rewriter where
  | removeUnusedColumns
deriving DecidableEq, Repr

namespace Rewriter

def name : Rewriter → String
  | removeUnusedColumns => "remove_unused_columns"

def description : Rewriter → String
  | removeUnusedColumns => "Projects a pojo query down to the columns its fields read"

def apply (r : Rewriter) (query : Query) (row : Row) : Query :=
  match r with
  | removeUnusedColumns => pruneWith Grammar.summary? query row

/-- Applies rewriters one after the other. -/
def applyAll (rewriters : List Rewriter) (query : Query) (row : Row) : Query :=
  rewriters.foldl (fun q r => r.apply q row) query

end Rewriter

end DataAccess.Rows
