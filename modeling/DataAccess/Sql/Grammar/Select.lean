import DataAccess.Sql.Grammar.Expression

/-!
Queries of the statement grammar: selections, values, set operations, joins and common table
expressions.
-/

set_option autoImplicit false

namespace DataAccess.Sql.Grammar.Rules

open Reader

variable (nested : Rules)

/-- A result column. A bare `FROM` is no column. -/
def resultColumn : Reader Unit := do
  let fromHere ← peekKeyword "FROM"
  let before ← remaining
  let star ← nested.starOrExpression
  unless star do
    if fromHere && (← remaining) + 1 = before then mismatch
    let _ ← aliasName notColumnAlias

def tableAlias : Reader Unit := do
  if ← aliasName notTableAlias then
    if ← operator "(" then
      commaSeparated (do
        let _ ← identifier
        unless (← peekOperator ",") || (← peekOperator ")") do dataType)
      expectOperator ")"

def joinCondition : Reader Unit := do
  if ← keyword "ON" then nested.anyExpression
  else if ← keyword "USING" then identifierList

/-- The words before the second table of a join; the answer is whether there is one and whether it
takes a condition. -/
def joinWords : Reader (Option Bool) := do
  let _ ← keyword "GLOBAL"
  if ← keyword "CROSS" then
    unless ← oneOf ["JOIN", "APPLY"] do mismatch
    return some false
  if ← keyword "OUTER" then
    expectKeyword "APPLY"
    return some false
  let natural ← keyword "NATURAL"
  if ← peekAnyKeyword ["INNER", "JOIN"] then
    let _ ← keyword "INNER"
    expectKeyword "JOIN"
    return some !natural
  if ← oneOf ["LEFT", "RIGHT"] then
    let _ ← oneOf ["OUTER", "SEMI", "ANTI"]
    expectKeyword "JOIN"
    return some !natural
  if ← oneOf ["ANTI", "SEMI"] then
    expectKeyword "JOIN"
    return some !natural
  if ← keyword "FULL" then
    let _ ← keyword "OUTER"
    expectKeyword "JOIN"
    return some !natural
  if natural then mismatch
  return none

/-- A query after its opening parenthesis, with its alias. -/
def derivedTable : Reader Unit := do
  nested.query
  expectOperator ")"
  tableAlias

/-- A named table or table function. -/
def namedTable : Reader Unit := do
  let name ← objectName
  relation name
  if ← operator "(" then
    unless ← operator ")" do
      commaSeparated nested.starOrExpression
      expectOperator ")"
  let _ ← keywords ["WITH", "ORDINALITY"]
  tableAlias
  if (← peekKeyword "WITH") && (← peekAt? 1) = some (.operator "(") then
    skip 2
    commaSeparated nested.anyExpression
    expectOperator ")"

/-- Whether a table expression is a join in parentheses. -/
abbrev IsNested := Bool

mutual

def tableFactor : Nat → Reader IsNested
  | 0 => mismatch
  | n + 1 => do
    if ← keyword "LATERAL" then
      if ← operator "(" then nested.derivedTable
      else
        let _ ← objectName
        parenthesized (do unless ← peekOperator ")" do commaSeparated nested.starOrExpression)
        tableAlias
      return false
    if ← keyword "TABLE" then
      parenthesized nested.anyExpression
      tableAlias
      return false
    if ← operator "(" then
      if (← attempt nested.derivedTable).isSome then return false
      let inner ← tableFactor n
      let joined ← joins n
      unless inner || joined do mismatch
      expectOperator ")"
      tableAlias
      return true
    nested.namedTable
    return false

/-- The joins after a table; the answer is whether there was one. -/
def joins : Nat → Reader Bool
  | 0 => mismatch
  | n + 1 => do
    match ← joinWords with
    | none => return false
    | some condition =>
      let _ ← tableFactor n
      if condition then
        if ← peekAnyKeyword ["JOIN", "INNER", "LEFT", "RIGHT", "FULL"] then let _ ← joins n
        nested.joinCondition
      let _ ← joins n
      return true

end

def tableAndJoins : Reader Unit := do
  let bound := 2 * (← remaining) + 2
  let _ ← nested.tableFactor bound
  let _ ← nested.joins bound

def selection : Reader Unit := do
  expectKeyword "SELECT"
  if ← keyword "DISTINCT" then
    if ← keyword "ON" then
      parenthesized (do unless ← peekOperator ")" do commaSeparated nested.anyExpression)
  else let _ ← keyword "ALL"
  if ← keyword "TOP" then
    if ← operator "(" then
      nested.anyExpression
      expectOperator ")"
    else number
    let _ ← keyword "PERCENT"
  commaSeparated nested.resultColumn
  if ← keyword "INTO" then
    let _ ← oneOf ["TEMPORARY", "TEMP"]
    let _ ← keyword "UNLOGGED"
    let _ ← keyword "TABLE"
    let _ ← objectName
  if ← keyword "FROM" then commaSeparated nested.tableAndJoins
  if ← keyword "WHERE" then nested.anyExpression
  if ← keywords ["GROUP", "BY"] then
    unless ← keyword "ALL" do commaSeparated nested.anyExpression
  if ← keywords ["CLUSTER", "BY"] then commaSeparated nested.anyExpression
  if ← keywords ["DISTRIBUTE", "BY"] then commaSeparated nested.anyExpression
  if ← keywords ["SORT", "BY"] then commaSeparated nested.anyExpression
  if ← keyword "HAVING" then nested.anyExpression
  if ← keyword "WINDOW" then
    commaSeparated (do
      let _ ← identifier
      expectKeyword "AS"
      if ← operator "(" then nested.windowBody else let _ ← identifier)
  if ← keyword "QUALIFY" then nested.anyExpression

def valueRows : Reader Unit :=
  commaSeparated (do
    let _ ← keyword "ROW"
    parenthesized (commaSeparated nested.anyExpression))

/-- One side of a set operation. -/
def setTerm : Reader Unit := do
  if ← peekKeyword "SELECT" then nested.selection
  else if ← operator "(" then
    nested.query
    expectOperator ")"
  else if ← keyword "VALUES" then nested.valueRows
  else
    expectKeyword "TABLE"
    let _ ← identifier
    if ← operator "." then let _ ← identifier

def setOperator : Reader Bool := do
  let hit ← oneOf ["UNION", "EXCEPT", "INTERSECT"]
  if hit then
    let _ ← oneOf ["ALL", "DISTINCT"]
    let _ ← keywords ["BY", "NAME"]
  return hit

def limitPart : Reader Bool := do
  if ← keyword "LIMIT" then
    unless ← keyword "ALL" do nested.anyExpression
    return true
  return false

def offsetPart : Reader Bool := do
  if ← keyword "OFFSET" then
    nested.anyExpression
    let _ ← oneOf ["ROW", "ROWS"]
    return true
  return false

/-- Limit and offset in either order; a comma after a limit starts another number. -/
def limits : Reader Unit := do
  let limit₁ ← nested.limitPart
  let offset₁ ← nested.offsetPart
  let comma₁ ← if limit₁ && !offset₁ then operator "," else pure false
  if comma₁ then nested.anyExpression
  let limit₂ ← if limit₁ then pure true else nested.limitPart
  let offset₂ ← if offset₁ || comma₁ then pure true else nested.offsetPart
  if limit₂ && !offset₂ then
    if ← operator "," then nested.anyExpression

def lockPart : Reader Bool := do
  if ← keyword "FOR" then
    unless ← oneOf ["UPDATE", "SHARE"] do mismatch
    if ← keyword "OF" then let _ ← objectName
    unless ← keyword "NOWAIT" do let _ ← keywords ["SKIP", "LOCKED"]
    return true
  return false

def fetchPart : Reader Unit := do
  if ← keyword "FETCH" then
    let _ ← oneOf ["FIRST", "NEXT"]
    unless ← peekAnyKeyword ["ROW", "ROWS"] do
      nested.anyExpression
      let _ ← keyword "PERCENT"
    unless ← oneOf ["ROW", "ROWS"] do mismatch
    unless ← keyword "ONLY" do expectKeywords ["WITH", "TIES"]

def commonTableExpression : Reader Unit := do
  commonTable (← identifier)
  if ← operator "(" then
    commaSeparated (do
      let _ ← identifier
      unless (← peekOperator ",") || (← peekOperator ")") do dataType)
    expectOperator ")"
  expectKeyword "AS"
  parenthesized nested.query
  if ← keyword "FROM" then let _ ← identifier

/-- The `WITH` list before a query. -/
def withList : Reader Unit := do
  if ← keyword "WITH" then
    let _ ← keyword "RECURSIVE"
    commaSeparated nested.commonTableExpression

/-- A query without its `WITH` list. -/
def plainQuery : Reader Unit := do
  separated setOperator nested.setTerm (← remaining)
  if ← keywords ["ORDER", "BY"] then commaSeparated nested.orderItem
  nested.limits
  fetchPart nested
  many lockPart (← remaining)

end DataAccess.Sql.Grammar.Rules
