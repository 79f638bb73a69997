import DataAccess.Reference.Expansion

/-!
Checks of statements that write rows: the table, the columns that are given values, and the
expressions over them. A statement that returns rows answers with their columns.
-/

set_option autoImplicit false

namespace DataAccess.Reference

namespace Resolution

/-- Checks an expression in a scope. -/
def checkExpression (scopes : List Scope) (e : Expr) : Except Failure Unit :=
  verdict (do expression maxNesting scopes true e)

end Resolution

namespace Target

/-- The table that a statement writes, unless it cannot be written. -/
def locate (catalog : Catalog) (t : Target) : Except Failure Table := do
  match catalog.locate? t.table.database (t.table.name.getD "") with
  | none => throw ⟨.noTable t.table.shownName, none⟩
  | some (.view v) =>
    let _ ← Expansion.view Resolution.maxNesting { catalog } v
    throw ⟨.viewNotWritable v.name, none⟩
  | some (.table table) =>
    unless table.isWritable do throw ⟨.tableNotWritable table.name, none⟩
    Expansion.checkIndex { catalog } t.table table.name
    return table

/-- The scope of expressions over the rows of the table. -/
def scope (t : Target) (table : Table) : Scope := { sources := [t.table.ofTable table] }

/-- The table as messages about its columns call it. -/
def shownName (t : Target) : String := t.table.asName.getD t.table.shownName

/-- Checks an expression over rows of the table, and over further scopes. -/
def check (t : Target) (catalog : Catalog) (scopes : List Scope) (e : Expr) :
    Except Failure Unit := do
  Resolution.checkExpression scopes (← e.expand catalog t.commonTables)

/-- The assignments of a statement, each of whose columns the table has. -/
def checkAssignments (t : Target) (catalog : Catalog) (table : Table) (scopes : List Scope)
    (assignments : Assignments) : Except Failure Unit := do
  for (columns, value) in assignments do
    t.check catalog scopes value
    for name in columns do
      let isColumn := table.columns.any (Text.sameWord ·.name name)
      unless isColumn || (table.hasRowId && Scope.isRowIdName name) do
        throw ⟨.noColumn name, none⟩

/-- The columns that the statement returns. -/
def returned (t : Target) (catalog : Catalog) (table : Table) :
    Except Failure (List (ResultItem Expr)) := do
  let scope := t.scope table
  let items := (← t.returning.mapM (Expansion.expandItem scope.sources)).flatten
  for item in items do item.value?.forM (t.check catalog [scope])
  return items

end Target

/-- What a written statement answers with: result columns in a scope. -/
abbrev Answer := List (ResultItem Expr) × Scope

namespace Insertion

/-- The columns that get a value have to be columns of the table. -/
def checkColumns (i : Insertion) (table : Table) : Except Failure Unit := do
  for name in i.columns.getD [] do
    let isColumn := table.columns.any (Text.sameWord ·.name name)
    unless isColumn || (table.hasRowId && Scope.isRowIdName name) do
      throw ⟨.columnNotInTable i.shownName name, none⟩

/-- The number of values in each row, once the rows are checked. -/
def checkRows (i : Insertion) (catalog : Catalog) (rows : Query) : Except Failure Nat := do
  if rows.first.isValues && rows.more.isEmpty then
    let tables := i.commonTables ++ rows.commonTables
    for item in rows.first.items do
      item.value?.forM fun e => do
        Resolution.checkExpression [] (← e.expand catalog tables)
    return rows.first.items.length
  let rows ← rows.expand catalog i.commonTables
  rows.check
  return rows.width

/-- Each row has one value for each column. -/
def checkCount (i : Insertion) (table : Table) (values : Nat) : Except Failure Unit := do
  match i.columns with
  | some columns =>
    if values ≠ columns.length then throw ⟨.valuesForColumns values columns.length, none⟩
  | none =>
    let columns := (table.columns.filter fun c => !c.hidden && !c.generated).length
    if values ≠ columns then throw ⟨.valueCount i.shownName columns values, none⟩

/-- Whether the columns of a target tell the rows of a table apart. -/
def isKey (table : Table) (columns : List String) : Bool :=
  let same (a b : List String) : Bool :=
    a.all (fun x => b.any (Text.sameWord x)) && b.all (fun x => a.any (Text.sameWord x))
  table.uniqueKeys.any (same columns) ||
    match columns with
    | [c] => table.hasRowId && Scope.isRowIdName c
    | _ => false

def checkUpsert (i : Insertion) (catalog : Catalog) (table : Table) (u : Upsert) :
    Except Failure Unit := do
  let scope := i.scope table
  for e in u.target do i.check catalog [scope] e
  u.targetCondition.forM (i.check catalog [scope])
  unless u.target.isEmpty do
    let columns := u.target.filterMap ResultItem.bareName?
    unless columns.length = u.target.length && isKey table columns do
      throw ⟨.noMatchingKey, none⟩
  let excluded : Scope :=
    { sources := [{ i.table.ofTable table with asName := some "excluded" }] }
  i.checkAssignments catalog table [scope, excluded] u.assignments
  u.condition.forM (i.check catalog [scope, excluded])

def prepare (i : Insertion) (catalog : Catalog) : Except Failure Answer := do
  let table ← i.locate catalog
  i.checkColumns table
  if let some rows := i.rows then i.checkCount table (← i.checkRows catalog rows)
  for u in i.upserts do i.checkUpsert catalog table u
  return (← i.returned catalog table, i.scope table)

end Insertion

namespace Update

/-- With further sources, the values and the condition are those of a query over all of them. -/
def checkJoined (u : Update) (catalog : Catalog) : Except Failure Unit := do
  let items := u.assignments.map fun (_, value) => ResultItem.expression value none ""
  let t : Term := { items, sources := u.table :: u.sources, condition := u.condition }
  (← (Query.ofTerm t).expand catalog u.commonTables).check

def prepare (u : Update) (catalog : Catalog) : Except Failure Answer := do
  let table ← u.locate catalog
  let scope := u.scope table
  if u.sources.isEmpty then
    u.checkAssignments catalog table [scope] u.assignments
    u.condition.forM (u.check catalog [scope])
  else
    let names := u.assignments.map fun (columns, _) => (columns, Expr.literal .null none)
    u.checkAssignments catalog table [scope] names
    u.checkJoined catalog
  return (← u.returned catalog table, scope)

end Update

namespace Deletion

def prepare (d : Deletion) (catalog : Catalog) : Except Failure Answer := do
  let table ← d.locate catalog
  let scope := d.scope table
  d.condition.forM (d.check catalog [scope])
  return (← d.returned catalog table, scope)

end Deletion

end DataAccess.Reference
