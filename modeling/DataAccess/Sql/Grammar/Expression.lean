import DataAccess.Sql.Grammar.Reader

/-!
Expressions of the statement grammar, read by precedence. `Rules` holds the readers of one level of
nesting less; each production here is a plain function of them.
-/

set_option autoImplicit false

namespace DataAccess.Sql.Grammar

/-- The readers of nested parts. -/
structure Rules where
  /-- An expression whose operators bind tighter than the given precedence. -/
  expression : Nat → Reader Unit
  query : Reader Unit

namespace Rules

open Reader

variable (nested : Rules)

def anyExpression : Reader Unit := nested.expression 0

def orderItem : Reader Unit := do
  nested.anyExpression
  let _ ← oneOf ["ASC", "DESC"]
  let _ ← (do if ← keywords ["NULLS", "FIRST"] then return true else keywords ["NULLS", "LAST"])

def orderBy? : Reader Unit := do
  if ← keywords ["ORDER", "BY"] then commaSeparated nested.orderItem

/-- Types whose name may stand before a text literal. -/
def literalTypes : List String :=
  ["BOOLEAN", "BOOL", "FLOAT", "REAL", "DOUBLE", "TINYINT", "SMALLINT", "MEDIUMINT", "INT",
    "INT2", "INT4", "INT8", "INTEGER", "BIGINT", "VARCHAR", "NVARCHAR", "CHARACTER", "CHAR", "CLOB",
    "BINARY", "VARBINARY", "BLOB", "BYTES", "UUID", "DATE", "DATETIME", "TIMESTAMP", "TIME", "JSON",
    "STRING", "TEXT", "NUMERIC", "DECIMAL", "DEC"]

/-- The numbers in parentheses after a type name. -/
def typeSize? : Reader Unit := do
  if ← operator "(" then
    commaSeparated (do let _ ← next)
    expectOperator ")"

/-- A declared type: words that go together, a size, or any name at all. -/
def dataType : Reader Unit := do
  if ← keywords ["DOUBLE", "PRECISION"] then return ()
  if ← keywords ["CHARACTER", "VARYING"] then return (← typeSize?)
  if ← keywords ["CHAR", "VARYING"] then return (← typeSize?)
  let _ ← objectName
  typeSize?
  let _ ← keyword "UNSIGNED"

/-- A text literal after the name of its type. -/
def typedText : Reader Unit := do
  unless ← oneOf literalTypes do mismatch
  typeSize?
  match ← next with
  | .string => return ()
  | _ => mismatch

def windowBound : Reader Unit := do
  if ← keywords ["CURRENT", "ROW"] then return ()
  unless ← keyword "UNBOUNDED" do nested.anyExpression
  unless ← oneOf ["PRECEDING", "FOLLOWING"] do mismatch

/-- A window after its opening parenthesis. -/
def windowBody : Reader Unit := do
  if !(← peekAnyKeyword ["PARTITION", "ORDER", "ROWS", "RANGE", "GROUPS"]) && !(← peekOperator ")")
  then let _ ← identifier
  if ← keywords ["PARTITION", "BY"] then commaSeparated nested.anyExpression
  nested.orderBy?
  if ← oneOf ["ROWS", "RANGE", "GROUPS"] then
    if ← keyword "BETWEEN" then
      nested.windowBound
      expectKeyword "AND"
      nested.windowBound
    else nested.windowBound
  expectOperator ")"

/-- The parts of a dotted name before a star. -/
def qualifiedStar (n : Nat) : Reader Unit := do
  match n with
  | 0 => mismatch
  | n + 1 =>
    let _ ← identifier
    expectOperator "."
    if ← operator "*" then return ()
    qualifiedStar n

/-- A star, a qualified star or an expression; the answer is whether it was a star. -/
def starOrExpression : Reader Bool := do
  if ← operator "*" then return true
  if ((← attempt (do qualifiedStar (← remaining)))).isSome then return true
  nested.anyExpression
  return false

/-- A call after the name of the function. -/
def call : Reader Unit := do
  expectOperator "("
  unless ← operator ")" do
    let _ ← oneOf ["DISTINCT", "ALL"]
    commaSeparated nested.starOrExpression
    nested.orderBy?
    if ← keyword "LIMIT" then nested.anyExpression
    expectOperator ")"
  if ← keywords ["WITHIN", "GROUP"] then
    parenthesized (do expectKeywords ["ORDER", "BY"]; commaSeparated nested.orderItem)
  if ← keyword "FILTER" then
    if ← operator "(" then
      if ← keyword "WHERE" then
        nested.anyExpression
        expectOperator ")"
  if !(← keywords ["IGNORE", "NULLS"]) then
    let _ ← keywords ["RESPECT", "NULLS"]
  if ← keyword "OVER" then
    if ← operator "(" then nested.windowBody else let _ ← identifier

/-- A name, a dotted name or a call. -/
def nameOrCall : Reader Unit := do
  match ← next with
  | .word _ _ =>
    let _ ← dotted ⟨[], ""⟩ (← remaining)
    if ← peekOperator "(" then nested.call
  | _ => mismatch

def caseBranches : Nat → Reader Unit
  | 0 => mismatch
  | n + 1 => do
    nested.anyExpression
    expectKeyword "THEN"
    nested.anyExpression
    if ← keyword "WHEN" then caseBranches n

def caseExpression : Reader Unit := do
  unless ← keyword "WHEN" do
    nested.anyExpression
    expectKeyword "WHEN"
  nested.caseBranches (← remaining)
  if ← keyword "ELSE" then nested.anyExpression
  expectKeyword "END"

/-- What follows a word that starts an expression of its own form; `none` for any other word. -/
def special? (word : String) : Option (Reader Unit) :=
  match word with
  | "NULL" | "TRUE" | "FALSE" => some (return ())
  | "CURRENT_TIMESTAMP" | "CURRENT_TIME" | "CURRENT_DATE" | "LOCALTIME" | "LOCALTIMESTAMP" =>
    some (do if ← peekOperator "(" then nested.call)
  | "CASE" => some nested.caseExpression
  | "CAST" | "TRY_CAST" | "SAFE_CAST" =>
    some (parenthesized (do nested.anyExpression; expectKeyword "AS"; dataType))
  | "EXISTS" => some (parenthesized nested.query)
  | "NOT" => some (nested.expression 15)
  | "EXTRACT" =>
    some (parenthesized (do let _ ← identifier; expectKeyword "FROM"; nested.anyExpression))
  | "SUBSTRING" =>
    some (parenthesized (do
      nested.anyExpression
      if (← keyword "FROM") || (← operator ",") then nested.anyExpression
      if (← keyword "FOR") || (← operator ",") then nested.anyExpression))
  | "TRIM" =>
    some (parenthesized (do
      let _ ← oneOf ["BOTH", "LEADING", "TRAILING"]
      nested.anyExpression
      if ← keyword "FROM" then nested.anyExpression))
  | "INTERVAL" =>
    some (do
      nested.expression 100
      let _ ← oneOf ["YEAR", "MONTH", "WEEK", "DAY", "HOUR", "MINUTE", "SECOND"])
  | _ => none

/-- Words that are never plain names, even where their own form does not fit. -/
def neverNames : List String := ["EXISTS", "INTERVAL", "STRUCT", "TRIM"]

/-- What stands in parentheses: a query or expressions. -/
def inParentheses : Reader Unit := do
  if ← peekAnyKeyword ["SELECT", "WITH"] then nested.query
  else commaSeparated nested.anyExpression

/-- An operand without its binary operators. -/
def operand : Reader Unit := do
  if (← attempt typedText).isSome then return ()
  match ← peek? with
  | some (.word value true) =>
    match nested.special? (Text.asciiUpper value) with
    | some form =>
      let special := do skip 1; form
      if neverNames.contains (Text.asciiUpper value) then special
      else special.orElse nested.nameOrCall
    | none => nested.nameOrCall
  | some (.word _ false) => nested.nameOrCall
  | some .number | some .string | some .placeholder => skip 1
  | some (.operator "-") | some (.operator "+") =>
    skip 1
    nested.expression 40
  | some (.operator ":") | some (.operator "@") =>
    skip 1
    match ← next with
    | .word _ _ | .number => return ()
    | _ => mismatch
  | some (.operator "(") =>
    skip 1
    nested.inParentheses
    expectOperator ")"
    if ← operator "." then
      match ← next with
      | .word _ _ => return ()
      | _ => mismatch
  | _ => mismatch

def operandWithCollation : Reader Unit := do
  nested.operand
  if ← keyword "COLLATE" then let _ ← objectName

/-- How tight an operator binds; 0 for what is no operator. -/
def precedence (first second : Option Symbol) : Nat :=
  match first with
  | some (.operator op) =>
    match op with
    | "=" | "==" | "<" | "<=" | ">" | ">=" | "<>" | "!=" | "<=>" | "~" => 20
    | "|" => 21
    | "^" | "#" | "<<" | ">>" => 22
    | "&" => 23
    | "+" | "-" => 30
    | "*" | "/" | "%" | "||" => 40
    | "::" | "!" | "&&" => 50
    | "->" | "->>" => 16
    | _ => 0
  | some x@(.word _ true) =>
    let isOne (ks : List String) := ks.any (Symbol.isKeyword x)
    if isOne ["OR"] then 5
    else if isOne ["AND"] then 10
    else if isOne ["XOR"] then 24
    else if isOne ["IS"] then 17
    else if isOne ["IN", "BETWEEN"] then 20
    else if isOne ["LIKE", "ILIKE", "RLIKE", "REGEXP", "MATCH", "SIMILAR"] then 19
    else if isOne ["NOT"] then
      let follows (ks : List String) := second.any fun y => ks.any (Symbol.isKeyword y)
      if follows ["IN", "BETWEEN"] then 20
      else if follows ["LIKE", "ILIKE", "RLIKE", "REGEXP", "SIMILAR"] then 19
      else 0
    else 0
  | _ => 0

/-- Operators that two operands stand around. -/
def binaryOperators : List String :=
  ["=", "==", "<", "<=", ">", ">=", "<>", "!=", "<=>", "~", "|", "^", "&", "+", "-", "*", "/", "%",
    "||", "->", "->>"]

def comparisons : List String := ["=", "==", "<", "<=", ">", ">=", "<>", "!="]

def pattern : Reader Unit := do
  nested.expression 19
  if ← keyword "ESCAPE" then
    match ← next with
    | .string | .word _ _ => return ()
    | _ => mismatch

def membership : Reader Unit := do
  expectOperator "("
  if ← peekAnyKeyword ["SELECT", "WITH"] then nested.query
  else unless ← peekOperator ")" do commaSeparated nested.anyExpression
  expectOperator ")"

/-- What follows `IS`. -/
def isTest : Reader Unit := do
  let _ ← keyword "NOT"
  if ← oneOf ["NULL", "TRUE", "FALSE", "UNKNOWN"] then return ()
  expectKeywords ["DISTINCT", "FROM"]
  nested.anyExpression

/-- An operator of the given precedence with its right operand. -/
def infixPart (level : Nat) : Reader Unit := do
  match ← next with
  | .operator "::" => dataType
  | .operator op =>
    unless binaryOperators.contains op do mismatch
    if ← oneOf ["ANY", "ALL", "SOME"] then
      unless comparisons.contains op do mismatch
      parenthesized nested.inParentheses
    else nested.expression level
  | .word value true =>
    match Text.asciiUpper value with
    | "AND" | "OR" | "XOR" => nested.expression level
    | "MATCH" | "REGEXP" => nested.anyExpression
    | "IS" => nested.isTest
    | "IN" => nested.membership
    | "BETWEEN" =>
      nested.expression 20
      expectKeyword "AND"
      nested.expression 20
    | "LIKE" | "ILIKE" => nested.pattern
    | "RLIKE" => nested.expression 19
    | "SIMILAR" =>
      expectKeyword "TO"
      nested.pattern
    | "NOT" =>
      if ← keyword "IN" then nested.membership
      else if ← keyword "BETWEEN" then
        nested.expression 20
        expectKeyword "AND"
        nested.expression 20
      else if ← oneOf ["LIKE", "ILIKE"] then nested.pattern
      else if ← oneOf ["REGEXP", "RLIKE"] then nested.expression 19
      else
        expectKeywords ["SIMILAR", "TO"]
        nested.pattern
    | _ => mismatch
  | _ => mismatch

/-- The operators that bind tighter than `level`, at most `n` of them. -/
def infixParts (level : Nat) : Nat → Reader Unit
  | 0 => return ()
  | n + 1 => do
    let found := precedence (← peek?) (← peekAt? 1)
    if level < found then
      nested.infixPart found
      infixParts level n

def expressionAbove (level : Nat) : Reader Unit := do
  nested.operandWithCollation
  nested.infixParts level (← remaining)

end Rules

end DataAccess.Sql.Grammar
