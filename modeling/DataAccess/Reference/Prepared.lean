import DataAccess.Reference.Grammar.Statement
import DataAccess.Reference.Limit
import DataAccess.Reference.Write

/-!
Prepared statements: the result columns of a statement, whether its first step succeeds, and the
catalog after it.
-/

set_option autoImplicit false

namespace DataAccess.Reference

structure Prepared where
  columns : List Column := []
  /-- Whether the first step succeeds, if one is taken to look at the result. -/
  starts : Bool := true
  after : Catalog

namespace Prepared

def resultColumns (items : List (ResultItem Expr)) (scope : Scope) : List Column :=
  items.mapIdx fun i item =>
    { name := item.name [scope] i, declared := item.value?.bind (Scope.declared? [scope]) }

def ofAnswer (c : Catalog) (answer : Answer) : Prepared :=
  { columns := resultColumns answer.1 answer.2, after := c }

def ofQuery (c : Catalog) (q : Query) : Except Failure Prepared := do
  let q ← q.expand c []
  q.check
  return {
    columns := resultColumns q.first.items (Scope.ofTerm q.first), starts := q.starts, after := c }

/-- Types that a strict table knows. -/
def strictTypes : List String := ["ANY", "BLOB", "INT", "INTEGER", "REAL", "TEXT"]

/-- Every column of a strict table has one of the known types. -/
def checkStrict (t : Table) : Except Failure Unit := do
  for c in t.columns do
    match c.declared with
    | none => throw ⟨.missingType t.name c.name, none⟩
    | some type =>
      unless strictTypes.any (Text.sameWord type) do throw ⟨.unknownType t.name c.name type, none⟩

/-- The table that a finished draft defines. -/
def tableOf (d : Draft) : Except Failure Table := do
  if d.isStrict then checkStrict d.table
  if d.withoutRowId then
    if d.hasAutoincrement then throw ⟨.autoincrementWithoutRowId, none⟩
    unless d.hasPrimaryKey do throw ⟨.primaryKeyMissing d.table.name, none⟩
  let source := ({} : Source).ofTable d.table
  let scope : Scope := { sources := [source], confinedTo := some "CHECK constraints" }
  for e in d.checks do Resolution.checkExpression [scope] e
  if d.withoutRowId then return { d.table with hasRowId := false, key := none }
  return d.table

/-- The table that holds the rows of a query. -/
def tableAs (c : Catalog) (name : String) (q : Query) : Except Failure Table := do
  let q ← q.expand c []
  q.check
  let scope := Scope.ofTerm q.first
  let names := q.first.items.mapIdx fun i item => item.name [scope] i
  return { name, columns := Expansion.columnsOf names q }

def createView (c : Catalog) (v : ViewStatement) : Except Failure Catalog := do
  if 0 < v.variableCount then throw ⟨.variablesInView, none⟩
  match Rules.nameIssue? c v.nameToken v.ifNotExists with
  | some f => throw f
  | none => return if Rules.isTaken c v.view.name then c else c.addView v.view

def createIndex (c : Catalog) (i : IndexStatement) : Except Failure Catalog := do
  let name := i.nameToken.value
  match c.find? i.table with
  | none => throw ⟨.noTable ("main." ++ i.table), none⟩
  | some (.view _) => throw ⟨.viewNotIndexable, none⟩
  | some (.table t) =>
    unless t.isWritable do throw ⟨.tableNotWritable t.name, none⟩
    if Rules.isTaken c name then throw ⟨.alreadyTable name, none⟩
    if c.hasIndex name then
      if i.ifNotExists then return c
      throw ⟨.alreadyExists "index" name, none⟩
    let source := ({} : Source).ofTable { t with hasRowId := false }
    let scope (place : String) : Scope := { sources := [source], confinedTo := some place }
    i.condition.forM (Resolution.checkExpression [scope "partial index WHERE clauses"])
    for e in i.items do Resolution.checkExpression [scope "index expressions"] e
    return c.addIndex name t.name

def drop (c : Catalog) (kind : ObjectKind) (ifExists : Bool) (database : Option String)
    (name : String) : Except Failure Catalog := do
  let shown := (database.map (· ++ ".")).getD "" ++ name
  let missing (issue : Issue) : Except Failure Catalog :=
    if ifExists then return c else throw ⟨issue, none⟩
  match kind, c.locate? database name with
  | .table, some (.table t) =>
    if t.isWritable then return c.erase t.name else throw ⟨.notDroppable t.name, none⟩
  | .table, some (.view v) => throw ⟨.dropWithOther "DROP VIEW" "view" v.name, none⟩
  | .table, none => missing (.noTable shown)
  | .view, some (.view v) => return c.erase v.name
  | .view, some (.table t) => throw ⟨.dropWithOther "DROP TABLE" "table" t.name, none⟩
  | .view, none => missing (.missingView shown)
  | .index, _ => if c.hasIndex name then return c.erase name else missing (.noIndex shown)
  | .trigger, _ => missing (.missingTrigger shown)

def explained (plan : Bool) : List Column :=
  let names :=
    if plan then ["id", "parent", "notused", "detail"]
    else ["addr", "opcode", "p1", "p2", "p3", "p4", "p5", "comment"]
  names.map fun name => { name }

/-- Prepares a statement that explains nothing. -/
def ofPlain (c : Catalog) : Statement → Except Failure Prepared
  | .empty | .control | .explain _ _ => return { after := c }
  | .query q => ofQuery c q
  | .insert i => return ofAnswer c (← i.prepare c)
  | .update u => return ofAnswer c (← u.prepare c)
  | .delete d => return ofAnswer c (← d.prepare c)
  | .createTable none | .createTableAs none _ => return { after := c }
  | .createTable (some d) => return { after := c.addTable (← tableOf d) }
  | .createTableAs (some name) q => return { after := c.addTable (← tableAs c name q) }
  | .createView v => return { after := ← createView c v }
  | .createIndex i => return { after := ← createIndex c i }
  | .drop kind ifExists database name => return { after := ← drop c kind ifExists database name }

def ofStatement (c : Catalog) : Statement → Except Failure Prepared
  | .explain plan s => do
    let _ ← ofPlain c s
    return { columns := explained plan, after := c }
  | s => ofPlain c s

/-- Prepares the first statement of a text; the number is that of the bytes up to its end. -/
def ofText (c : Catalog) (sql : String) : Except Failure (Prepared × Nat) := do
  let (s, size) ← Statement.read c sql
  return (← ofStatement c s, size)

end Prepared

end DataAccess.Reference
