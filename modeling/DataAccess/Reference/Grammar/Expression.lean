import DataAccess.Reference.Grammar.Reader

/-!
Expressions, read by precedence. `Rules` holds the readers of one level of nesting less; each
production here is a plain function of them.
-/

set_option autoImplicit false

namespace DataAccess.Reference

namespace Literal

/-- The value of a decimal number with the given digits after its point and exponent, when whole. -/
def scaled? (mantissa fraction : Nat) (exponent : Int) : Option Nat :=
  let shift := exponent - fraction
  if 0 ≤ shift then
    if mantissa = 0 then some 0 else if shift ≤ 400 then some (mantissa * Nat.pow 10 shift.toNat) else none
  else if mantissa = 0 then some 0
  else if shift < -400 then none
  else
    let unit := Nat.pow 10 (-shift).toNat
    if mantissa % unit = 0 then some (mantissa / unit) else none

def hexValue (digits : List Char) : Nat :=
  digits.foldl (fun n c =>
    let d := c.toLower.toNat
    16 * n + (if c.isDigit then d - '0'.toNat else d - 'a'.toNat + 10)) 0

/-- The value of an unsigned number without separators, when it is whole. -/
def whole? (s : List Char) : Option Nat :=
  match s with
  | '0' :: 'x' :: digits | '0' :: 'X' :: digits => some (hexValue digits)
  | _ =>
    let digits := s.takeWhile Char.isDigit
    let afterDigits := s.dropWhile Char.isDigit
    let (fraction, rest) := match afterDigits with
      | '.' :: r => (r.takeWhile Char.isDigit, r.dropWhile Char.isDigit)
      | _ => ([], afterDigits)
    let exponent : Int := match rest with
      | _ :: '-' :: ds => -(Sql.digitsValue ds : Int)
      | _ :: '+' :: ds => Sql.digitsValue ds
      | _ :: ds => Sql.digitsValue ds
      | [] => 0
    scaled? (Sql.digitsValue (digits ++ fraction)) fraction.length exponent

end Literal

/-- The readers of nested parts. -/
structure Rules where
  /-- An expression whose operators bind tighter than the given precedence. -/
  expression : Nat → Reader Expr
  query : Reader Query

namespace Rules

open Reader

variable (nested : Rules)

def anyExpression : Reader Expr := nested.expression 0

/-- A term of `ORDER BY`. -/
def orderItem : Reader Expr := do
  let e ← nested.anyExpression
  unless ← keyword "ASC" do let _ ← keyword "DESC"
  if ← keyword "NULLS" then
    unless ← keyword "FIRST" do expectKeyword "LAST"
  return e

def orderBy? : Reader (List Expr) := do
  if ← keywords "ORDER" ["BY"] then commaSeparated nested.orderItem else return []

def signedNumber : Reader Unit := do
  unless ← symbol "+" do let _ ← symbol "-"
  let _ ← takeIf fun t => t.kind = .integer || t.kind = .float

/-- The words of a declared type with its size; `none` without any words. -/
def typeName? : Reader (Option String) := do
  let words ← many (do
    if ← peekIf Token.isPlainNameOrText then return some (← next) else return none)
  match words.head?, words.getLast? with
  | some first, some last =>
    let mut finish := last.offset + Token.byteCount last.text.toList
    if ← symbol "(" then
      signedNumber
      if ← symbol "," then signedNumber
      let closing ← takeIf (·.isSymbol ")")
      finish := closing.offset + 1
    return some (String.ofList (Reader.between first.offset finish 0 (← get).text))
  | _, _ => return none

/-- Separators in a number stand between digits only. -/
def separatorsFit (isDigit : Char → Bool) : List Char → Bool
  | a :: '_' :: b :: rest => isDigit a && isDigit b && separatorsFit isDigit (b :: rest)
  | [_, '_'] => false
  | _ :: rest => separatorsFit isDigit rest
  | [] => true

def separatedNumber (t : Token) : Reader Literal := do
  let s := t.text.toList
  let isHex := s.head? = some '0' && (s[1]?).any (·.toLower = 'x')
  unless separatorsFit (if isHex then Token.isHexDigit else Char.isDigit) s do
    fail (.unrecognized t.text) none
  let digits := s.filter (· ≠ '_')
  if digits.all Char.isDigit then return .integer (Sql.digitsValue digits)
  else return .number (Literal.whole? digits)

def integerValue (t : Token) : Nat := (Literal.whole? t.text.toList).getD 0

/-- A frame bound, with its expression if it has one. -/
def frameBound (unbounded : List String) : Reader (List Expr) := do
  if ← keyword "UNBOUNDED" then
    match unbounded with
    | [] => refuse
    | u :: us =>
      unless ← us.anyM keyword do expectKeyword u
      return []
  if ← keywords "CURRENT" ["ROW"] then return []
  let e ← nested.anyExpression
  unless ← keyword "PRECEDING" do expectKeyword "FOLLOWING"
  return [e]

def frame? : Reader (List Expr) := do
  unless ← ["RANGE", "ROWS", "GROUPS"].anyM keyword do return []
  let bounds ← do
    if ← keyword "BETWEEN" then
      let first ← nested.frameBound ["PRECEDING"]
      expectKeyword "AND"
      pure (first ++ (← nested.frameBound ["FOLLOWING"]))
    else nested.frameBound ["PRECEDING"]
  if ← keyword "EXCLUDE" then
    if ← keywords "NO" ["OTHERS"] then pure ()
    else if ← keywords "CURRENT" ["ROW"] then pure ()
    else unless ← keyword "GROUP" do expectKeyword "TIES"
  return bounds

/-- A window between its parentheses. -/
def windowBody : Reader (WindowOf Expr) := do
  let parts := ["PARTITION", "ORDER", "RANGE", "ROWS", "GROUPS"]
  let base ←
    if (← peekSymbol ")") || (← peekAnyKeyword parts) then pure none
    else some <$> nameValue
  let partition ← do
    if ← keywords "PARTITION" ["BY"] then commaSeparated nested.anyExpression else pure []
  let order ← nested.orderBy?
  return ⟨base, partition ++ order ++ (← nested.frame?)⟩

def over? : Reader (Option (WindowOf Expr)) := do
  unless ← keyword "OVER" do return none
  if ← peekSymbol "(" then return some (← parenthesized nested.windowBody)
  return some ⟨some (← nameValue), []⟩

def filter? : Reader (Option Expr) := do
  unless ← keyword "FILTER" do return none
  parenthesized (do
    expectKeyword "WHERE"
    return some (← nested.anyExpression))

/-- A call after the name of its function. -/
def call (function : Token) : Reader Expr := do
  let offset ← place function
  expectSymbol "("
  let star ← symbol "*"
  let distinct ← do
    if star then pure false
    else if ← keyword "DISTINCT" then pure true
    else
      let _ ← keyword "ALL"
      pure false
  let args ← do
    if star || (← peekSymbol ")") || (← peekKeyword "ORDER") then pure []
    else commaSeparated nested.anyExpression
  let order ← if star then pure [] else nested.orderBy?
  expectSymbol ")"
  let filter ← nested.filter?
  let window ← nested.over?
  return .call function.value distinct star args order filter window offset

/-- What follows a name: a call, the parts of a dotted name, or nothing. -/
def nameOrCall : Reader Expr := do
  let first ← next
  let offset ← place first
  if first.kind ≠ .text && (← peekSymbol "(") then return ← nested.call first
  if ← symbol "." then
    let second ← nameValue
    if ← symbol "." then return .member [first.value, second, ← nameValue] offset
    return .member [first.value, second] offset
  return .name first.value (first.kind = .quoted '"') offset

def caseParts : Reader (List Expr) := do
  let branches ← many (do
    if ← keyword "WHEN" then
      let condition ← nested.anyExpression
      expectKeyword "THEN"
      return some [condition, ← nested.anyExpression]
    return none)
  if branches.isEmpty then refuse
  let otherwise ← do
    if ← keyword "ELSE" then pure [← nested.anyExpression] else pure []
  expectKeyword "END"
  return branches.flatten ++ otherwise

def startsQuery : Reader Bool := peekAnyKeyword ["SELECT", "VALUES", "WITH"]

/-- What stands in parentheses: a query, an expression, or a row of expressions. -/
def inParentheses : Reader Expr := do
  if ← startsQuery then return .scalar (← nested.query)
  match ← commaSeparated nested.anyExpression with
  | [e] => return e
  | items => return .row items

def raiseCall (offset : Option Nat) : Reader Expr :=
  parenthesized (do
    unless ← keyword "IGNORE" do
      unless ← ["ROLLBACK", "ABORT"].anyM keyword do expectKeyword "FAIL"
      expectSymbol ","
      let _ ← nameValue
    return .raise offset)

/-- An operand that starts with a word of its own form. -/
def special? (word : String) : Option (Reader Expr) :=
  match word with
  | "NULL" => some (do let t ← next; return .literal .null (← place t))
  | "CURRENT_DATE" | "CURRENT_TIME" | "CURRENT_TIMESTAMP" =>
    some (do let t ← next; return .literal .moment (← place t))
  | "CASE" =>
    some (do
      let _ ← next
      let base ← if ← peekKeyword "WHEN" then pure none else some <$> nested.anyExpression
      return .branches base (← nested.caseParts))
  | "CAST" =>
    some (do
      let _ ← next
      parenthesized (do
        let e ← nested.anyExpression
        expectKeyword "AS"
        let _ ← typeName?
        return .operation "CAST" [e]))
  | "EXISTS" => some (do let _ ← next; return .exist (← parenthesized nested.query))
  | "NOT" => some (do let _ ← next; return .operation "NOT" [← nested.expression 2])
  | "RAISE" => some (do let t ← next; raiseCall (← place t))
  | _ => none

/-- An operand without its operators. -/
def operand : Reader Expr := do
  let t ← peek
  let offset ← place t
  let form? := match t.kind with
    | .word | .reserved => nested.special? (Text.asciiUpper t.text)
    | _ => none
  if let some form := form? then return ← form
  match t.kind with
  | .integer => let _ ← next; return .literal (.integer (integerValue t)) offset
  | .float => let _ ← next; return .literal (.number (Literal.whole? t.text.toList)) offset
  | .separated => let _ ← next; return .literal (← separatedNumber t) offset
  | .blob => let _ ← next; return .literal .blob offset
  | .variable =>
    let _ ← next
    useVariable t
    return .variable offset
  | .text =>
    if (← peekAt? 1).any (·.isSymbol ".") then nested.nameOrCall
    else
      let _ ← next
      return .literal (.text t.value) offset
  | .symbol =>
    match t.text with
    | "(" => parenthesized nested.inParentheses
    | "-" | "+" | "~" => let _ ← next; return .operation t.text [← nested.expression 12]
    | _ => refuse
  | _ => if t.isOperandName then nested.nameOrCall else refuse

/-- How tight an operator binds that starts with a token; 0 for what is no operator. -/
def precedence (t : Token) : Nat :=
  match t.kind with
  | .symbol =>
    match t.text with
    | "=" | "==" | "<>" | "!=" => 4
    | "<" | "<=" | ">" | ">=" => 5
    | "&" | "|" | "<<" | ">>" => 7
    | "+" | "-" => 8
    | "*" | "/" | "%" => 9
    | "||" | "->" | "->>" => 10
    | _ => 0
  | .word | .reserved =>
    match Text.asciiUpper t.text with
    | "OR" => 1
    | "AND" => 2
    | "NOT" => 3
    | "IS" | "LIKE" | "GLOB" | "REGEXP" | "MATCH" | "BETWEEN" | "IN" | "ISNULL" | "NOTNULL" => 4
    | "COLLATE" => 11
    | _ => 0
  | _ => 0

/-- The rows that `IN` looks through. -/
def membership (left : Expr) : Reader Expr := do
  if ← peekSymbol "(" then
    parenthesized (do
      if ← startsQuery then return .inQuery left (← nested.query)
      if ← peekSymbol ")" then return .inList left []
      return .inList left (← commaSeparated nested.anyExpression))
  else
    let first ← nameValue
    let (database, table) ← do
      if ← symbol "." then pure (some first, ← nameValue) else pure (none, first)
    let arguments ← do
      if ← peekSymbol "(" then
        parenthesized (do
          if ← peekSymbol ")" then return some []
          return some (← commaSeparated nested.anyExpression))
      else pure none
    let source : Source := { database, name := some table, arguments, inView := !(← get).located }
    return .inQuery left (.ofTerm { items := [.star none], sources := [source] })

/-- A pattern test, which is a call whose first argument is the pattern. -/
def patternTest (left : Expr) : Reader Expr := do
  let t ← next
  let pattern ← nested.expression 4
  let escape ← do
    if ← keyword "ESCAPE" then pure [← nested.expression 4] else pure []
  return .call t.value false false (pattern :: left :: escape) [] none none (← place t)

def range (left : Expr) : Reader Expr := do
  let low ← nested.expression 2
  expectKeyword "AND"
  return .between left low (← nested.expression 4)

/-- An operator with its operands, the first of which is already read. -/
def infixPart (left : Expr) : Reader Expr := do
  let t ← peek
  if t.kind = .symbol then
    let _ ← next
    return .operation t.text [left, ← nested.expression (precedence t)]
  match Text.asciiUpper t.text with
  | "LIKE" | "GLOB" | "REGEXP" | "MATCH" => nested.patternTest left
  | "COLLATE" =>
    let _ ← next
    return .collate left (← takeIf Token.isPlainNameOrText).value
  | "ISNULL" | "NOTNULL" =>
    let _ ← next
    return .operation "ISNULL" [left]
  | "IS" =>
    let _ ← next
    let _ ← keyword "NOT"
    let _ ← keywords "DISTINCT" ["FROM"]
    return .operation "IS" [left, ← nested.expression 4]
  | "IN" => let _ ← next; nested.membership left
  | "BETWEEN" => let _ ← next; nested.range left
  | "NOT" =>
    let _ ← next
    if ← keyword "NULL" then return .operation "ISNULL" [left]
    if ← keyword "IN" then return .operation "NOT" [← nested.membership left]
    if ← keyword "BETWEEN" then return .operation "NOT" [← nested.range left]
    if ← peekAnyKeyword ["LIKE", "GLOB", "REGEXP", "MATCH"] then
      return .operation "NOT" [← nested.patternTest left]
    refuse
  | word =>
    let _ ← next
    return .operation word [left, ← nested.expression (precedence t)]

/-- The operators that bind tighter than `level`, at most `n` of them. -/
def infixParts (level : Nat) (left : Expr) : Nat → Reader Expr
  | 0 => return left
  | n + 1 => do
    if level < precedence (← peek) then infixParts level (← nested.infixPart left) n
    else return left

def expressionAbove (level : Nat) : Reader Expr := do
  nested.infixParts level (← nested.operand) (← remaining)

end Rules

end DataAccess.Reference
