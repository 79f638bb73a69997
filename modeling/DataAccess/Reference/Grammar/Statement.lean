import DataAccess.Reference.Grammar.Definition

/-!
Statements. `Statement.read` takes the first statement of a text; whatever follows its semicolon is
left for later.
-/

set_option autoImplicit false

namespace DataAccess.Reference

inductive ObjectKind where
  | table | view | index | trigger
deriving DecidableEq, Repr

def ObjectKind.name : ObjectKind → String
  | table => "table"
  | view => "view"
  | index => "index"
  | trigger => "trigger"

/-- A view with the token of its name and the number of variables in its query. -/
structure ViewStatement where
  nameToken : Token
  ifNotExists : Bool
  view : ViewDefinition
  variableCount : Nat

structure IndexStatement where
  nameToken : Token
  ifNotExists : Bool
  table : String
  items : List Expr
  condition : Option Expr := none

inductive Statement where
  /-- A text without a statement. -/
  | empty
  | query (q : Query)
  | insert (i : Insertion)
  | update (u : Update)
  | delete (d : Deletion)
  /-- The table is missing when one of its name may stay. -/
  | createTable (draft : Option Draft)
  | createTableAs (name : Option String) (q : Query)
  | createView (v : ViewStatement)
  | createIndex (i : IndexStatement)
  | drop (kind : ObjectKind) (ifExists : Bool) (database : Option String) (name : String)
  | explain (plan : Bool) (of : Statement)
  /-- A statement about the connection, which is only read. -/
  | control

namespace Rules

open Reader

variable (nested : Rules)

def conflictPolicy? : Reader Unit := do
  if ← keyword "OR" then
    unless ← ["ROLLBACK", "ABORT", "FAIL", "IGNORE"].anyM keyword do expectKeyword "REPLACE"

/-- The table that a statement writes, with its alias. -/
def writtenTable : Reader Source := do
  let first ← nameValue
  let (database, table) ← do
    if ← symbol "." then pure (some first, ← nameValue) else pure (none, first)
  let asName ← if ← keyword "AS" then some <$> nameValue else pure none
  return { database, name := some table, asName }

def returning? : Reader (List (ResultItem Expr)) := do
  if ← keyword "RETURNING" then nested.resultItems else return []

/-- One assignment; a row has one value for each column. -/
def assignment : Reader (List String × Expr) := do
  if ← peekSymbol "(" then
    let columns ← nameList
    expectSymbol "="
    let value ← nested.anyExpression
    match value with
    | .scalar _ => pure ()
    | .row items =>
      if items.length ≠ columns.length then
        defer (.unevenAssignment columns.length items.length) none
    | _ => if columns.length ≠ 1 then defer (.unevenAssignment columns.length 1) none
    return (columns, value)
  let column ← nameValue
  expectSymbol "="
  return ([column], ← nested.anyExpression)

def assignments : Reader Assignments := do
  expectKeyword "SET"
  commaSeparated nested.assignment

/-- A clause about rows that are already there; `none` when there is no more. -/
def upsert? : Reader (Option Upsert) := do
  unless ← keyword "ON" do return none
  expectKeyword "CONFLICT"
  let (target, targetCondition) ← do
    if ← peekSymbol "(" then
      let items ← parenthesized (commaSeparated nested.orderItem)
      pure (items, ← nested.whereClause?)
    else pure ([], none)
  expectKeyword "DO"
  if ← keyword "NOTHING" then return some { target, targetCondition }
  expectKeyword "UPDATE"
  let assignments ← nested.assignments
  return some { target, targetCondition, assignments, condition := ← nested.whereClause? }

/-- The clauses up to the first without a target. -/
def upserts : Nat → Reader (List Upsert)
  | 0 => return []
  | n + 1 => do
    match ← nested.upsert? with
    | none => return []
    | some u => if u.target.isEmpty then return [u] else return u :: (← upserts n)

def insertion (commonTables : List CommonTable) : Reader Statement := do
  if ← keyword "INSERT" then conflictPolicy? else expectKeyword "REPLACE"
  expectKeyword "INTO"
  let table ← writtenTable
  let columns ← if ← peekSymbol "(" then some <$> nameList else pure none
  if ← keywords "DEFAULT" ["VALUES"] then
    return .insert { commonTables, table, columns, returning := ← nested.returning? }
  let rows ← nested.anyQuery
  let upserts ← nested.upserts (← remaining)
  return .insert
    { commonTables, table, columns, rows := some rows, upserts, returning := ← nested.returning? }

def update (commonTables : List CommonTable) : Reader Statement := do
  expectKeyword "UPDATE"
  conflictPolicy?
  let table ← writtenTable
  let table := { table with index := ← indexHint }
  let assignments ← nested.assignments
  let sources ← if ← keyword "FROM" then nested.sources else pure []
  let condition ← nested.whereClause?
  return .update
    { commonTables, table, assignments, sources, condition, returning := ← nested.returning? }

def deletion (commonTables : List CommonTable) : Reader Statement := do
  expectKeywords ["DELETE", "FROM"]
  let table ← writtenTable
  let table := { table with index := ← indexHint }
  let condition ← nested.whereClause?
  return .delete { commonTables, table, condition, returning := ← nested.returning? }

def ifNotExists : Reader Bool := keywords "IF" ["NOT", "EXISTS"]

/-- A name that is to be given, with the token that an issue with it is about. -/
def newName : Reader Token := do
  let first ← name
  if ← symbol "." then
    let second ← name
    unless ["main", "temp"].any (Text.sameWord · first.value) do
      defer (.noDatabase first.text) (some first.offset)
    return second
  return first

/-- What stands in the way of a new table or view; a name that may stay taken is no issue. -/
def nameIssue? (c : Catalog) (t : Token) (mayStay : Bool) : Option Failure :=
  if Text.sameWord (String.ofList (t.value.toList.take 7)) "sqlite_" then
    some ⟨.reservedName t.value, none⟩
  else if (c.table? t.value).isSome then
    if mayStay then none else some ⟨.alreadyExists "table" t.text, some t.offset⟩
  else if (c.view? t.value).isSome then
    if mayStay then none else some ⟨.alreadyExists "view" t.text, some t.offset⟩
  else if c.hasIndex t.value then some ⟨.alreadyIndex t.value, none⟩
  else none

def isTaken (c : Catalog) (name : String) : Bool :=
  (c.table? name).isSome || (c.view? name).isSome

def createTable : Reader Statement := do
  expectKeyword "TABLE"
  let mayStay ← ifNotExists
  let t ← newName
  let catalog := (← get).catalog
  if let some f := nameIssue? catalog t mayStay then defer f.issue f.offset
  let isNew := !isTaken catalog t.value
  if ← keyword "AS" then
    return .createTableAs (if isNew then some t.value else none) (← nested.anyQuery)
  let draft : Draft := { table := { name := t.value, columns := [] } }
  return .createTable (← nested.tableBody (if isNew then some draft else none))

def createView : Reader Statement := do
  expectKeyword "VIEW"
  let mayStay ← ifNotExists
  let t ← newName
  let columns ← if ← peekSymbol "(" then some <$> nameList else pure none
  expectKeyword "AS"
  modify fun s => { s with located := false }
  let query ← nested.anyQuery
  return .createView ⟨t, mayStay, { name := t.value, columns, query }, (← get).variableCount⟩

def createIndex : Reader Statement := do
  expectKeyword "INDEX"
  let mayStay ← ifNotExists
  let t ← newName
  expectKeyword "ON"
  let table ← nameValue
  let items ← parenthesized (commaSeparated nested.orderItem)
  return .createIndex ⟨t, mayStay, table, items, ← nested.whereClause?⟩

/-- Takes everything up to the end of the statement. -/
def skipToEnd : Nat → Reader Unit
  | 0 => return ()
  | n + 1 => do
    if ← peekIf Token.isEnd then return ()
    let _ ← next
    skipToEnd n

def control : Reader Statement := do
  let _ ← next
  skipToEnd (← remaining)
  return .control

def create : Reader Statement := do
  expectKeyword "CREATE"
  if ← keyword "UNIQUE" then return ← nested.createIndex
  unless ← keyword "TEMP" do let _ ← keyword "TEMPORARY"
  if ← peekKeyword "TABLE" then nested.createTable
  else if ← peekKeyword "VIEW" then nested.createView
  else if ← peekKeyword "INDEX" then nested.createIndex
  else if ← peekAnyKeyword ["TRIGGER", "VIRTUAL"] then control
  else refuse

def drop : Reader Statement := do
  expectKeyword "DROP"
  let kinds := [ObjectKind.table, .view, .index, .trigger]
  let t ← peek
  match kinds.find? fun k => t.isKeyword (Text.asciiUpper k.name) with
  | none => refuse
  | some kind =>
    let _ ← next
    let ifExists ← keywords "IF" ["EXISTS"]
    let first ← nameValue
    if ← symbol "." then return .drop kind ifExists (some first) (← nameValue)
    return .drop kind ifExists none first

def controlWords : List String :=
  ["ALTER", "ANALYZE", "ATTACH", "BEGIN", "COMMIT", "DETACH", "END", "PRAGMA", "REINDEX", "RELEASE",
    "ROLLBACK", "SAVEPOINT", "VACUUM"]

/-- A statement by its first word. -/
def plainStatement : Reader Statement := do
  if ← peekKeyword "CREATE" then return ← nested.create
  if ← peekKeyword "DROP" then return ← drop
  if ← peekAnyKeyword controlWords then return ← control
  let commonTables ← nested.commonTables?
  if ← peekAnyKeyword ["INSERT", "REPLACE"] then return ← nested.insertion commonTables
  if ← peekKeyword "UPDATE" then return ← nested.update commonTables
  if ← peekKeyword "DELETE" then return ← nested.deletion commonTables
  if ← peekAnyKeyword ["SELECT", "VALUES"] then
    return .query (← nested.queryUnder commonTables)
  refuse

def statement : Reader Statement := do
  if ← keyword "EXPLAIN" then
    let plan ← keywords "QUERY" ["PLAN"]
    return .explain plan (← nested.plainStatement)
  nested.plainStatement

end Rules

namespace Statement

/-- A statement and its end. -/
def complete (nested : Rules) : Reader Statement := do
  if ← Reader.peekIf (·.kind = .finish) then return .empty
  let s ← nested.statement
  unless ← Reader.peekIf Token.isEnd do Reader.refuse
  match (← get).deferred with
  | some f => throw f
  | none => return s

/-- The first statement of a text, and the number of bytes up to its end. -/
def read (catalog : Catalog) (sql : String) : Except Failure (Statement × Nat) := do
  let tokens := (Token.scan sql).dropWhile (·.isSymbol ";")
  let start : ReaderState := { rest := tokens, text := sql.toList, catalog }
  let (s, state) ← complete (Rules.atDepth tokens.length) start
  let last := Reader.ReaderState.head state
  return (s, last.offset + last.text.utf8ByteSize)

end Statement

end DataAccess.Reference
