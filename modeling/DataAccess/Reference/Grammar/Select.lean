import DataAccess.Reference.Grammar.Expression

/-!
Queries: terms with their `FROM` clauses, set operations and common table expressions.
-/

set_option autoImplicit false

namespace DataAccess.Reference.Rules

open Reader

variable (nested : Rules)

/-- An alias; after `AS` any name is one. -/
def alias? : Reader (Option String) := do
  if ← keyword "AS" then return some (← nameValue)
  if ← peekIf Token.isPlainNameOrText then return some (← next).value
  return none

def resultItem : Reader (ResultItem Expr) := do
  let t ← peek
  let offset ← place t
  if ← symbol "*" then return .star offset
  if t.isName && (← peekAt? 1).any (·.isSymbol ".") && (← peekAt? 2).any (·.isSymbol "*") then
    let table ← nameValue
    expectSymbol "."
    expectSymbol "*"
    return .tableStar table offset
  let (e, span) ← withSpan nested.anyExpression
  return .expression e (← alias?) span

def resultItems : Reader (List (ResultItem Expr)) := commaSeparated nested.resultItem

/-- The joins that a word asks for: inner, outer, and which sides keep unmatched rows. -/
def joinWord? (word : String) : Option (Bool × Bool × Join) :=
  match Text.asciiUpper word with
  | "NATURAL" => some (false, false, { natural := true })
  | "LEFT" => some (false, true, { keepsLeft := true })
  | "RIGHT" => some (false, true, { keepsRight := true })
  | "FULL" => some (false, true, { keepsLeft := true, keepsRight := true })
  | "OUTER" => some (false, true, {})
  | "INNER" | "CROSS" => some (true, false, {})
  | _ => none

/-- The join that words ask for together, if they do. -/
def joinOfWords? (words : List String) : Option Join := do
  let parts ← words.mapM joinWord?
  let isInner := parts.any (·.1)
  let isOuter := parts.any (·.2.1)
  let join : Join :=
    { natural := parts.any (·.2.2.natural)
      keepsLeft := parts.any (·.2.2.keepsLeft)
      keepsRight := parts.any (·.2.2.keepsRight) }
  if (isInner && isOuter) || (isOuter && !join.keepsLeft && !join.keepsRight) then none
  return join

def joinOperator? : Reader (Option Join) := do
  if ← symbol "," then return some {}
  if ← keyword "JOIN" then return some {}
  unless ← peekIf (·.kind = .join) do return none
  let first ← next
  let second ← if ← peekIf Token.isName then pure [← next] else pure []
  let third ← if !second.isEmpty && (← peekIf Token.isName) then pure [← next] else pure []
  expectKeyword "JOIN"
  let words := first :: second ++ third
  match joinOfWords? (words.map Token.text) with
  | some join => return some join
  | none => fail (.unknownJoin (words.map Token.text)) (words.getLast?.map Token.offset)

/-- Adds the alias and the condition that follow a source. -/
def withCondition (isFirst : Bool) (s : Source) : Reader Source := do
  if ← keyword "ON" then
    let on ← nested.anyExpression
    if isFirst then defer (.joinMissing "ON") none
    return { s with on := some on }
  if ← keyword "USING" then
    let shared ← nameList
    if isFirst then defer (.joinMissing "USING") none
    return { s with shared := some shared }
  return s

def indexHint : Reader (Option String) := do
  if ← keyword "INDEXED" then
    expectKeyword "BY"
    return some (← nameValue)
  if ← keyword "NOT" then expectKeyword "INDEXED"
  return none

def namedSource (isFirst : Bool) (join : Join) : Reader Source := do
  let first ← nameValue
  let (database, table) ← do
    if ← symbol "." then pure (some first, ← nameValue) else pure (none, first)
  let arguments ← do
    if ← peekSymbol "(" then
      parenthesized (do
        if ← peekSymbol ")" then return some []
        return some (← commaSeparated nested.anyExpression))
    else pure none
  let asName ← alias?
  let index ← if arguments.isNone then indexHint else pure none
  nested.withCondition isFirst
    { database, name := some table, arguments, asName, index, join, inView := !(← get).located }

/-- Whether a source in parentheses is followed by nothing of its own. -/
def isBare (s : Source) : Bool := s.asName.isNone && s.on.isNone && s.shared.isNone

/-- The sources of a `FROM` clause, given those of the clauses in parentheses inside it. -/
def sourcesWithin (inner : Reader (List Source)) (before : List Source) (join : Join) :
    Nat → Reader (List Source)
  | 0 => refuse
  | n + 1 => do
    let isFirst := before.isEmpty
    let added ← do
      if ← symbol "(" then
        if ← startsQuery then
          let query ← nested.query
          expectSymbol ")"
          pure [← nested.withCondition isFirst { query := some query, join, asName := ← alias? }]
        else
          let group ← inner
          expectSymbol ")"
          let outer ← nested.withCondition isFirst { join, asName := ← alias? }
          match group with
          | [single] =>
            if isFirst && isBare outer then pure [single]
            else
              pure [{ single with
                asName := outer.asName, on := outer.on, shared := outer.shared, join, index := none }]
          | _ =>
            if isFirst && isBare outer then pure group
            else
              let term : Term := { items := [.star none], sources := group }
              pure [{ outer with query := some (.ofTerm term), isGroup := true }]
      else pure [← nested.namedSource isFirst join]
    let sources := before ++ added
    match ← joinOperator? with
    | some join => sourcesWithin inner sources join n
    | none => return sources

/-- Sources in at most `depth` levels of parentheses. -/
def sourcesAtDepth : Nat → Reader (List Source)
  | 0 => refuse
  | depth + 1 => do
    nested.sourcesWithin (sourcesAtDepth depth) [] {} (← remaining)

def sources : Reader (List Source) := do nested.sourcesAtDepth (← remaining)

def whereClause? : Reader (Option Expr) := do
  if ← keyword "WHERE" then return some (← nested.anyExpression) else return none

/-- The limit and the number of rows to skip, which comes first when a comma follows it. -/
def limits : Reader (Option Expr × Option Expr) := do
  unless ← keyword "LIMIT" do return (none, none)
  let first ← nested.anyExpression
  if ← keyword "OFFSET" then return (some first, some (← nested.anyExpression))
  if ← symbol "," then return (some (← nested.anyExpression), some first)
  return (some first, none)

def windowDefinition : Reader (String × List Expr) := do
  let name ← nameValue
  expectKeyword "AS"
  let window ← parenthesized nested.windowBody
  return (name, window.parts)

def selectTerm : Reader Term := do
  expectKeyword "SELECT"
  let distinct ← keyword "DISTINCT"
  unless distinct do let _ ← keyword "ALL"
  let items ← nested.resultItems
  let sources ← if ← keyword "FROM" then nested.sources else pure []
  let condition ← nested.whereClause?
  let groupBy ← do
    if ← keywords "GROUP" ["BY"] then commaSeparated nested.anyExpression else pure []
  let having ← do
    if ← keyword "HAVING" then some <$> nested.anyExpression else pure none
  let windows ← do
    if ← keyword "WINDOW" then commaSeparated nested.windowDefinition else pure []
  let orderBy ← nested.orderBy?
  let (limit, skip) ← nested.limits
  return { distinct, items, sources, condition, groupBy, having, windows, orderBy, limit, skip }

/-- A row of values as a term. -/
def valuesRow : Reader Term := do
  let row ← parenthesized (commaSeparated (withSpan nested.anyExpression))
  return { isValues := true, items := row.map fun (e, _) => .expression e none "" }

/-- The terms of one operand of set operations. -/
def operandTerms : Reader (Term × List (Combination × Term)) := do
  if ← keyword "VALUES" then
    match ← commaSeparated nested.valuesRow with
    | [] => refuse
    | row :: rows => return (row, rows.map (.unionAll, ·))
  else return (← nested.selectTerm, [])

def combination? : Reader (Option Combination) := do
  if ← keyword "UNION" then
    return some (if ← keyword "ALL" then .unionAll else .union)
  if ← keyword "INTERSECT" then return some .intersect
  if ← keyword "EXCEPT" then return some .except
  return none

/-- Several rows on the right of a set operation are a query of their own. -/
def asOneTerm : Term × List (Combination × Term) → Term
  | (t, []) => t
  | (t, more) => { items := [.star none], sources := [{ query := some (.mk [] t more) }] }

/-- The first clause, seen from the right, that stands before a set operation. -/
def misplaced? (first : Term) (more : List (Combination × Term)) : Option Issue :=
  let before := (first :: more.map Prod.snd).zip (more.map Prod.fst)
  before.reverse.findSome? fun (t, c) =>
    if !t.orderBy.isEmpty then some (.misplacedClause "ORDER BY" c.name)
    else if t.limit.isSome then some (.misplacedClause "LIMIT" c.name)
    else none

def commonTable : Reader CommonTable := do
  let name ← nameValue
  let columns ← if ← peekSymbol "(" then some <$> nameList else pure none
  expectKeyword "AS"
  if ← keyword "NOT" then expectKeyword "MATERIALIZED"
  else let _ ← keyword "MATERIALIZED"
  return { name, columns, query := ← parenthesized nested.query }

/-- Common tables with names of their own, at most `n` after the first. -/
def commonTablesWithin (before : List CommonTable) : Nat → Reader (List CommonTable)
  | 0 => refuse
  | n + 1 => do
    let t ← nested.commonTable
    if before.any (Text.sameWord ·.name t.name) then fail (.repeatedCommonTable t.name) none
    let tables := before ++ [t]
    if ← symbol "," then commonTablesWithin tables n else return tables

def commonTables? : Reader (List CommonTable) := do
  unless ← keyword "WITH" do return []
  let _ ← keyword "RECURSIVE"
  nested.commonTablesWithin [] (← remaining)

/-- A query after its common table expressions. -/
def queryUnder (tables : List CommonTable) : Reader Query := do
  let (first, rows) ← nested.operandTerms
  let operands ← many (do
    match ← combination? with
    | some c => return some (c, asOneTerm (← nested.operandTerms))
    | none => return none)
  let more := rows ++ operands
  if let some issue := misplaced? first more then defer issue none
  return .mk tables first more

def anyQuery : Reader Query := do nested.queryUnder (← nested.commonTables?)

end Rules

namespace Rules

/-- The readers with at most `depth` levels of nesting. -/
def atDepth : Nat → Rules
  | 0 => ⟨fun _ => Reader.refuse, Reader.refuse⟩
  | depth + 1 =>
    let nested := atDepth depth
    ⟨nested.expressionAbove, nested.anyQuery⟩

end DataAccess.Reference.Rules
