import DataAccess.Sql.Grammar.Select
import DataAccess.Sql.StatementKind

/-!
Statements, and what a text that is exactly one statement does and refers to.
-/

set_option autoImplicit false

namespace DataAccess.Sql

/-- What a statement is, and the tables it reads or writes. -/
structure Summary where
  kind : StatementKind
  tables : NameSet
deriving DecidableEq

namespace Grammar

namespace Rules

open Reader

variable (nested : Rules)

def returning : Reader Unit := do
  if ← keyword "RETURNING" then commaSeparated nested.resultColumn

/-- `OR` and what to do on a conflict. -/
def conflictClause : Reader Unit := do
  let hit ← ["REPLACE", "ROLLBACK", "ABORT", "FAIL", "IGNORE"].anyM fun k => keywords ["OR", k]
  unless hit do let _ ← keyword "REPLACE"

def assignment : Reader Unit := do
  if ← peekOperator "(" then parenthesized (commaSeparated objectName)
  else let _ ← objectName
  expectOperator "="
  nested.anyExpression

def onConflict : Reader Unit := do
  if ← keyword "ON" then
    if ← keyword "CONFLICT" then
      if ← keywords ["ON", "CONSTRAINT"] then let _ ← objectName
      else if ← peekOperator "(" then identifierList
      expectKeyword "DO"
      unless ← keyword "NOTHING" do
        expectKeywords ["UPDATE", "SET"]
        commaSeparated nested.assignment
        if ← keyword "WHERE" then nested.anyExpression
    else
      expectKeywords ["DUPLICATE", "KEY", "UPDATE"]
      commaSeparated nested.assignment

/-- An insertion after `INSERT`, or from `REPLACE` on. -/
def insertion : Reader Unit := do
  conflictClause
  let _ ← keyword "OVERWRITE"
  let _ ← keyword "INTO"
  let _ ← keyword "TABLE"
  relation (← objectName)
  unless ← keywords ["DEFAULT", "VALUES"] do
    if ← peekOperator "(" then
      let query := (← peekAt? 1).any fun x =>
        Symbol.isKeyword x "SELECT" || Symbol.isKeyword x "WITH"
      unless query do identifierList
    nested.query
  nested.onConflict
  nested.returning

/-- An update after `UPDATE`. -/
def update : Reader Unit := do
  conflictClause
  nested.tableAndJoins
  expectKeyword "SET"
  commaSeparated nested.assignment
  if ← keyword "FROM" then nested.tableAndJoins
  if ← keyword "WHERE" then nested.anyExpression
  nested.returning

/-- A deletion after `DELETE`. -/
def deletion : Reader Unit := do
  unless ← keyword "FROM" do
    commaSeparated objectName
    expectKeyword "FROM"
  commaSeparated nested.tableAndJoins
  if ← keyword "USING" then commaSeparated nested.tableAndJoins
  if ← keyword "WHERE" then nested.anyExpression
  nested.returning
  nested.orderBy?
  let _ ← nested.limitPart

/-- A query with its `WITH` list; one that starts with it can also insert or update. -/
def queryOrWrite : Reader StatementKind := asQuery do
  nested.withList
  if ← keyword "INSERT" then
    nested.insertion
    return .insert
  if ← keyword "UPDATE" then
    nested.update
    return .update
  nested.plainQuery
  return .select

/-- The readers that follow at most `depth` levels of nesting. -/
def upTo : Nat → Rules
  | 0 => ⟨fun _ => throw .tooDeep, throw .tooDeep⟩
  | depth + 1 =>
    ⟨(upTo depth).expressionAbove, do let _ ← (upTo depth).queryOrWrite⟩

/-- Part of a column definition after its type. -/
def columnOption : Reader Bool := do
  if ← keyword "CONSTRAINT" then let _ ← identifier
  if ← keyword "NOT" then
    expectKeyword "NULL"
    return true
  if ← oneOf ["NULL", "UNIQUE", "AUTOINCREMENT", "ASC", "DESC"] then return true
  if ← keywords ["PRIMARY", "KEY"] then return true
  if ← keyword "DEFAULT" then
    nested.expression 20
    return true
  if ← keyword "COLLATE" then
    let _ ← objectName
    return true
  if ← keyword "CHECK" then
    parenthesized nested.anyExpression
    return true
  if ← keyword "REFERENCES" then
    let _ ← objectName
    if ← peekOperator "(" then identifierList
    many (do
      if ← keyword "ON" then
        unless ← oneOf ["DELETE", "UPDATE"] do mismatch
        if ← oneOf ["RESTRICT", "CASCADE"] then return true
        if ← keywords ["SET", "NULL"] then return true
        if ← keywords ["SET", "DEFAULT"] then return true
        expectKeywords ["NO", "ACTION"]
        return true
      return false) (← remaining)
    return true
  return false

def tableConstraint : Reader Bool := do
  if ← keyword "CONSTRAINT" then let _ ← identifier
  if (← keywords ["PRIMARY", "KEY"]) || (← keyword "UNIQUE") then
    identifierList
    return true
  if ← keywords ["FOREIGN", "KEY"] then
    identifierList
    expectKeyword "REFERENCES"
    let _ ← objectName
    if ← peekOperator "(" then identifierList
    return true
  if ← keyword "CHECK" then
    parenthesized nested.anyExpression
    return true
  return false

def columnOrConstraint : Reader Unit := do
  let before ← remaining
  if ← nested.tableConstraint then return ()
  unless before = (← remaining) do mismatch
  let _ ← identifier
  unless (← peekOperator ",") || (← peekOperator ")")
      || (← peekAnyKeyword ["NOT", "NULL", "PRIMARY", "UNIQUE", "DEFAULT", "COLLATE", "CHECK",
        "REFERENCES", "CONSTRAINT"]) do
    dataType
  many nested.columnOption (← remaining)

def ifNotExists : Reader Unit := do let _ ← keywords ["IF", "NOT", "EXISTS"]

def createTable : Reader Unit := do
  ifNotExists
  relation (← objectName)
  if ← operator "(" then
    unless ← operator ")" do
      commaSeparated nested.columnOrConstraint
      expectOperator ")"
  let _ ← keywords ["WITHOUT", "ROWID"]
  let _ ← keyword "STRICT"
  if ← keyword "AS" then nested.query

def createView : Reader Unit := do
  ifNotExists
  let _ ← objectName
  if ← peekOperator "(" then identifierList
  expectKeyword "AS"
  nested.query

def createIndex : Reader Unit := do
  ifNotExists
  unless ← peekKeyword "ON" do let _ ← objectName
  expectKeyword "ON"
  relation (← objectName)
  parenthesized (commaSeparated nested.orderItem)
  if ← keyword "WHERE" then nested.anyExpression

/-- A definition after `CREATE`. -/
def creation : Reader Unit := do
  let _ ← keywords ["OR", "REPLACE"]
  let _ ← oneOf ["TEMPORARY", "TEMP"]
  if ← keyword "TABLE" then nested.createTable
  else if ← keyword "VIEW" then nested.createView
  else if ← keywords ["UNIQUE", "INDEX"] then nested.createIndex
  else
    expectKeyword "INDEX"
    nested.createIndex

/-- A removal after `DROP`. -/
def removal : Reader Unit := do
  let _ ← oneOf ["TEMPORARY", "TEMP"]
  unless ← oneOf ["TABLE", "VIEW", "INDEX"] do mismatch
  let _ ← keywords ["IF", "EXISTS"]
  commaSeparated objectName
  let _ ← oneOf ["CASCADE", "RESTRICT"]

/-- The value of a pragma. -/
def pragmaValue : Reader Unit := do
  let _ ← operator "-"
  match ← next with
  | .number | .string | .placeholder | .word _ _ => return ()
  | _ => mismatch

def transaction : Reader Unit := do
  let _ ← oneOf ["DEFERRED", "IMMEDIATE", "EXCLUSIVE"]
  let _ ← oneOf ["TRANSACTION", "WORK"]

/-- A statement that is neither a query nor a write. -/
def otherStatement : Reader Unit := do
  if ← keyword "CREATE" then nested.creation
  else if ← keyword "DROP" then removal
  else if ← keyword "PRAGMA" then
    let _ ← objectName
    if ← operator "(" then
      pragmaValue
      expectOperator ")"
    else if ← operator "=" then pragmaValue
  else if ← oneOf ["BEGIN", "START"] then transaction
  else if ← oneOf ["COMMIT", "END"] then transaction
  else if ← keyword "ROLLBACK" then
    transaction
    if ← keyword "TO" then
      let _ ← keyword "SAVEPOINT"
      let _ ← identifier
  else if ← keyword "SAVEPOINT" then let _ ← identifier
  else if ← keyword "RELEASE" then
    let _ ← keyword "SAVEPOINT"
    let _ ← identifier
  else
    expectKeyword "ANALYZE"
    let _ ← keyword "TABLE"
    relation (← objectName)

def plainStatement : Reader StatementKind := do
  if ← peekKeyword "REPLACE" then
    nested.insertion
    return .insert
  if ← keyword "INSERT" then
    nested.insertion
    return .insert
  if ← keyword "UPDATE" then
    nested.update
    return .update
  if ← keyword "DELETE" then
    nested.deletion
    return .delete
  nested.otherStatement
  return .unknown

end Rules

open Reader in
/-- A statement. Its kind is unknown when it is neither a query nor a write. -/
def statement (depth : Nat) : Reader StatementKind := do
  if (← peekAnyKeyword ["SELECT", "WITH", "VALUES"]) || (← peekOperator "(") then
    match depth with
    | 0 => throw .tooDeep
    | depth + 1 => (Rules.upTo depth).queryOrWrite
  else if ← oneOf ["EXPLAIN", "DESCRIBE", "DESC"] then
    unless ← keywords ["QUERY", "PLAN"] do
      let _ ← keyword "ANALYZE"
      let _ ← keyword "VERBOSE"
    if ← peekAnyKeyword ["SELECT", "WITH", "VALUES"] then let _ ← (Rules.upTo depth).queryOrWrite
    else
      let plain ← attempt (Rules.upTo depth).plainStatement
      if plain.isNone then relation (← objectName)
    return .unknown
  else (Rules.upTo depth).plainStatement

open Reader in
/-- Semicolons around one statement; `END` also ends a text. -/
def oneStatement (depth : Nat) : Reader StatementKind := do
  many (operator ";") (← remaining)
  let kind ← statement depth
  unless ← peekKeyword "END" do
    many (operator ";") (← remaining)
    unless (← remaining) = 0 do mismatch
  return kind

/-- How many levels of nesting a text may have, its statement included. -/
def maxDepth : Nat := 50

/-- The kind of a text that is one statement of the grammar, and what it refers to. -/
def read? (text : List Char) : Option (StatementKind × Mentions) :=
  match symbols? text with
  | none => none
  | some symbols =>
    match (oneStatement (maxDepth - 1)).run { rest := symbols } with
    | .error _ => none
    | .ok (kind, state) => some (kind, state.mentions)

/-- The summary of a text that is one statement of the grammar. -/
def summary? (text : List Char) : Option Summary :=
  (read? text).map fun (kind, mentions) => ⟨kind, mentions.reported⟩

end Grammar

end DataAccess.Sql
