import DataAccess.Reference.Grammar.Select

/-!
Table definitions. The table takes shape while it is read, so that an issue with a column or a key
is found where the text has it.
-/

set_option autoImplicit false

namespace DataAccess.Reference

/-- A table that is being defined. -/
structure Draft where
  table : Table
  hasPrimaryKey : Bool := false
  hasAutoincrement : Bool := false
  withoutRowId : Bool := false
  isStrict : Bool := false
  checks : List Expr := []

namespace Draft

def mapTable (d : Draft) (f : Table → Table) : Draft := { d with table := f d.table }

def lastColumn (d : Draft) : String := (d.table.columns.getLast?.map Column.name).getD ""

def columnIndex? (d : Draft) (name : String) : Option Nat :=
  d.table.columns.findIdx? (Text.sameWord ·.name name)

def addColumn (d : Draft) (name : String) (declared : Option String) : Draft :=
  d.mapTable fun t => { t with columns := t.columns ++ [{ name, declared }] }

def addKey (d : Draft) (columns : List String) : Draft :=
  d.mapTable fun t => { t with uniqueKeys := t.uniqueKeys ++ [columns] }

/-- A column whose type is exactly `INTEGER` can name the row id. -/
def isInteger (d : Draft) (index : Nat) : Bool :=
  ((d.table.columns[index]?).bind Column.declared).any (Text.sameWord · "INTEGER")

def markGenerated (d : Draft) : Draft :=
  d.mapTable fun t =>
    { t with
      columns := t.columns.dropLast ++
        t.columns.getLast?.toList.map fun c => { c with generated := true } }

end Draft

namespace Expr

/-- The expression without its collations. -/
def uncollated : Expr → Expr
  | collate e _ => e.uncollated
  | e => e

/-- The collations around an expression. -/
def outerCollations : Expr → List String
  | collate e c => c :: e.outerCollations
  | _ => []

end Expr

mutual

/-- Whether an expression has one value, whatever the row; calls count as constant. -/
def constantWithin : Nat → Expr → Bool
  | 0, _ => false
  | n + 1, e =>
    match e with
    | .literal _ _ => true
    | .name value _ _ => Text.sameWord value "TRUE" || Text.sameWord value "FALSE"
    | .call _ _ _ args _ _ _ _ => allConstantWithin n args
    | .operation _ operands => allConstantWithin n operands
    | .collate operand _ => constantWithin n operand
    | .between a b c => allConstantWithin n [a, b, c]
    | .branches base parts => allConstantWithin n (base.toList ++ parts)
    | .row items => allConstantWithin n items
    | .inList operand items => allConstantWithin n (operand :: items)
    | _ => false

def allConstantWithin : Nat → List Expr → Bool
  | 0, _ => false
  | _, [] => true
  | n + 1, e :: es => constantWithin n e && allConstantWithin n es

end

namespace Rules

open Reader

variable (nested : Rules)

/-- Changes the draft, when there is one. -/
def revise (d : Option Draft) (f : Draft → Reader Draft) : Reader (Option Draft) := d.mapM f

/-- The columns of a key, each of which the table has. -/
def keyColumns (d : Draft) (items : List Expr) : Reader (List String) :=
  items.filterMapM fun item => do
    if let some c := item.outerCollations.find? fun c => !collations.any (Text.sameWord c) then
      defer (.noCollation c) none
    let column (name : String) (offset : Option Nat) : Reader (Option String) := do
      match d.columnIndex? name with
      | some _ => return some name
      | none =>
        defer (.noColumn name) offset
        return none
    match item.uncollated with
    | .name value doubleQuoted offset =>
      if doubleQuoted && (d.columnIndex? value).isNone then
        defer .expressionInKey none
        return none
      column value offset
    | .literal (.text value) offset => column value offset
    | _ =>
      defer .expressionInKey none
      return none

def autoincrement? : Reader Bool := keyword "AUTOINCREMENT"

/-- Adds a primary key over some columns, which may name the row id. -/
def addPrimaryKey (d : Draft) (columns : Reader (List String)) (descending autoincrement : Bool) :
    Reader Draft := do
  if d.hasPrimaryKey then
    defer (.secondPrimaryKey d.table.name) none
    return d
  let columns ← columns
  let d := { d with hasPrimaryKey := true, hasAutoincrement := autoincrement }.addKey columns
  let key? := match columns with
    | [c] => (d.columnIndex? c).filter d.isInteger
    | _ => none
  match key? with
  | some key =>
    if !descending then return d.mapTable fun t => { t with key := some key }
  | none => pure ()
  if autoincrement then defer .misplacedAutoincrement none
  return d

def conflictClause? : Reader Unit := do
  if ← keyword "ON" then
    expectKeyword "CONFLICT"
    unless ← ["ROLLBACK", "ABORT", "FAIL", "IGNORE"].anyM keyword do expectKeyword "REPLACE"

def sortOrder? : Reader Bool := do
  if ← keyword "DESC" then return true
  let _ ← keyword "ASC"
  return false

/-- What a foreign key does when the row it refers to changes. -/
def referenceActions : Reader Unit := do
  let _ ← many (do
    if ← keyword "MATCH" then
      let _ ← nameValue
      return some ()
    unless ← keyword "ON" do return none
    unless ← ["INSERT", "DELETE"].anyM keyword do expectKeyword "UPDATE"
    if ← keyword "SET" then
      unless ← keyword "NULL" do expectKeyword "DEFAULT"
    else if ← keyword "NO" then expectKeyword "ACTION"
    else unless ← keyword "CASCADE" do expectKeyword "RESTRICT"
    return some ())

/-- The rest of `DEFERRABLE`. -/
def initially? : Reader Unit := do
  if ← keyword "INITIALLY" then
    unless ← keyword "DEFERRED" do expectKeyword "IMMEDIATE"

/-- The table and the columns that a foreign key refers to. -/
def reference : Reader (Token × Option (List String)) := do
  let table ← name
  let columns ← if ← peekSymbol "(" then some <$> nameList else pure none
  referenceActions
  return (table, columns)

def isConstantTerm (t : Token) : Bool :=
  [TokenKind.integer, .float, .separated, .blob, .text].contains t.kind ||
    ["NULL", "CURRENT_DATE", "CURRENT_TIME", "CURRENT_TIMESTAMP"].any t.isKeyword

def defaultValue (column : String) : Reader Unit := do
  if ← peekSymbol "(" then
    let e ← parenthesized nested.anyExpression
    unless constantWithin (← get).text.length e do fail (.variableDefault column) none
  else if (← symbol "+") || (← symbol "-") then
    let _ ← takeIf isConstantTerm
  else
    let _ ← takeIf fun t => isConstantTerm t || t.isPlainName || t.kind = .indexed

def collation : Reader Unit := do
  let t ← takeIf Token.isPlainNameOrText
  unless collations.any (Text.sameWord · t.value) do fail (.noCollation t.value) none

/-- A constraint after a column; `none` when there is no more. -/
def columnConstraint? (d : Option Draft) : Reader (Option (Option Draft)) := do
  let column := (d.map Draft.lastColumn).getD ""
  if ← keyword "CONSTRAINT" then
    let _ ← nameValue
    return some d
  if ← keyword "DEFAULT" then
    nested.defaultValue column
    return some d
  if ← keyword "NULL" then
    conflictClause?
    return some d
  if ← keyword "NOT" then
    if ← keyword "DEFERRABLE" then initially?
    else
      expectKeyword "NULL"
      conflictClause?
    return some d
  if ← keywords "PRIMARY" ["KEY"] then
    let descending ← sortOrder?
    conflictClause?
    let autoincrement ← autoincrement?
    return some (← revise d fun d => addPrimaryKey d (return [column]) descending autoincrement)
  if ← keyword "UNIQUE" then
    conflictClause?
    return some (d.map (·.addKey [column]))
  if ← keyword "CHECK" then
    let e ← parenthesized nested.anyExpression
    return some (d.map fun d => { d with checks := d.checks ++ [e] })
  if ← keyword "REFERENCES" then
    let (table, columns) ← reference
    if columns.any (·.length ≠ 1) then
      defer (.foreignSingle column table.text) (some table.offset)
    return some d
  if ← keyword "DEFERRABLE" then
    initially?
    return some d
  if ← keyword "COLLATE" then
    collation
    return some d
  let isGenerated ← keywords "GENERATED" ["ALWAYS", "AS"]
  if isGenerated || (← keyword "AS") then
    let _ ← parenthesized nested.anyExpression
    if ← peekIf Token.isPlainName then let _ ← next
    return some (d.map Draft.markGenerated)
  return none

/-- The draft after the constraints of a column, at most `n` of them. -/
def columnConstraints (d : Option Draft) : Nat → Reader (Option Draft)
  | 0 => return d
  | n + 1 => do
    match ← nested.columnConstraint? d with
    | some d => columnConstraints d n
    | none => return d

/-- The words that mark a computed column can end up behind its type. -/
def withoutGeneratedMark (type : String) : Option String × Bool :=
  let words := (type.splitToList Token.isMoreBlank).filter (· ≠ "")
  match words.reverse with
  | always :: generated :: rest =>
    if Text.sameWord always "ALWAYS" && Text.sameWord generated "GENERATED" then
      (if rest.isEmpty then none else some (" ".intercalate rest.reverse), true)
    else (some type, false)
  | _ => (some type, false)

def column (d : Option Draft) : Reader (Option Draft) := do
  let name ← nameValue
  let declared := (← typeName?).bind (withoutGeneratedMark · |>.1)
  let d ← revise d fun d => do
    if (d.columnIndex? name).isSome then defer (.repeatedColumn name) none
    return d.addColumn name declared
  nested.columnConstraints d (← remaining)

/-- A constraint of the whole table. -/
def tableConstraint (d : Option Draft) : Reader (Option Draft) := do
  if ← keyword "CONSTRAINT" then
    let _ ← nameValue
    return d
  if ← keywords "PRIMARY" ["KEY"] then
    let (items, autoincrement) ← parenthesized (do
      return (← commaSeparated nested.orderItem, ← autoincrement?))
    conflictClause?
    return ← revise d fun d => addPrimaryKey d (keyColumns d items) false autoincrement
  if ← keyword "UNIQUE" then
    let items ← parenthesized (commaSeparated nested.orderItem)
    conflictClause?
    return ← revise d fun d => return d.addKey (← keyColumns d items)
  if ← keyword "CHECK" then
    let e ← parenthesized nested.anyExpression
    conflictClause?
    return d.map fun d => { d with checks := d.checks ++ [e] }
  expectKeywords ["FOREIGN", "KEY"]
  let columns ← nameList
  expectKeyword "REFERENCES"
  let (_, others) ← reference
  if ← keyword "NOT" then
    expectKeyword "DEFERRABLE"
    initially?
  else if ← keyword "DEFERRABLE" then initially?
  revise d fun d => do
    if others.any (·.length ≠ columns.length) then defer .foreignWidth none
    else if let some c := columns.find? fun c => (d.columnIndex? c).isNone then
      defer (.foreignColumn c) none
    return d

def startsTableConstraint : Reader Bool :=
  peekAnyKeyword ["CONSTRAINT", "PRIMARY", "UNIQUE", "CHECK", "FOREIGN"]

/-- Constraints of the table, between which commas are optional. -/
def tableConstraints (d : Option Draft) : Nat → Reader (Option Draft)
  | 0 => return d
  | n + 1 => do
    let d ← nested.tableConstraint d
    if (← symbol ",") || (← startsTableConstraint) then tableConstraints d n else return d

/-- Columns up to the first constraint of the table. -/
def columns (d : Option Draft) : Nat → Reader (Option Draft)
  | 0 => return d
  | n + 1 => do
    let d ← nested.column d
    if ← symbol "," then
      if ← startsTableConstraint then nested.tableConstraints d (← remaining)
      else columns d n
    else return d

def tableOption (d : Option Draft) : Reader (Option Draft) := do
  if ← keyword "WITHOUT" then
    let t ← name
    unless Text.sameWord t.text "ROWID" do fail (.unknownTableOption t.text) none
    return d.map fun d => { d with withoutRowId := true }
  let t ← name
  unless Text.sameWord t.text "STRICT" do fail (.unknownTableOption t.text) none
  return d.map fun d => { d with isStrict := true }

def tableOptions (d : Option Draft) : Nat → Reader (Option Draft)
  | 0 => return d
  | n + 1 => do
    let d ← tableOption d
    if ← symbol "," then tableOptions d n else return d

/-- A table definition between its name and its end. -/
def tableBody (d : Option Draft) : Reader (Option Draft) := do
  expectSymbol "("
  let d ← nested.columns d (← remaining)
  expectSymbol ")"
  if ← peekIf Token.isEnd then return d
  tableOptions d (← remaining)

end Rules

end DataAccess.Reference
