import DataAccess.Text.CharClass

/-!
Symbols of the statement grammar. Blanks and comments (which nest here) vanish; a text with an
unterminated run or a stray character has no symbols.
-/

set_option autoImplicit false

namespace DataAccess.Sql.Grammar

inductive Symbol where
  /-- A name; only a bare one can be a keyword. -/
  | word (value : String) (bare : Bool)
  | number
  | string
  | placeholder
  | operator (text : String)
deriving DecidableEq, Repr

/-- Identifiers take any character from DEL to the end of the basic plane. -/
def isWordStart (c : Char) : Bool :=
  c.isAlpha || c = '_' || c = '$' || (0x7f ≤ c.toNat && c.toNat ≤ 0xffff)

def isWordPart (c : Char) : Bool := isWordStart c || c.isDigit

/-- The operators, longer ones before their beginnings. -/
def operators : List String :=
  ["->>", "<=>", "||", "->", "==", "=>", "<=", "<>", "<<", ">=", ">>", "!=", "::", ":=", "&&",
    "(", ")", ",", ".", ";", "*", "=", "<", ">", "!", "+", "-", "/", "%", "|", "&", "^", "~", ":",
    "@", "#", "\x7b", "\x7d", "\\", "]"]

/-- The rest after a closing quote, which does not close when it is doubled. -/
def afterQuote? (quote : Char) : List Char → Option (List Char × List Char)
  | [] => none
  | [c] => if c = quote then some ([], []) else none
  | c :: d :: rest =>
    if c = quote then
      if d = quote then (afterQuote? quote rest).map fun (value, r) => (quote :: value, r)
      else some ([], d :: rest)
    else (afterQuote? quote (d :: rest)).map fun (value, r) => (c :: value, r)

/-- The rest after a block comment of the given depth; `last` is the character before. -/
def afterComment? (depth : Nat) (last : Char) : List Char → Option (List Char)
  | [] => none
  | c :: rest =>
    if last = '/' && c = '*' then afterComment? (depth + 1) c rest
    else if last = '*' && c = '/' then
      if depth = 1 then some rest else afterComment? (depth - 1) c rest
    else afterComment? depth c rest

/-- The rest after a number: digits, a fraction, an exponent that has digits, a length mark. -/
def afterNumber (s : List Char) : List Char :=
  let whole := s.dropWhile Char.isDigit
  let fraction := match whole with
    | '.' :: rest => rest.dropWhile Char.isDigit
    | _ => whole
  let exponent := match fraction with
    | e :: rest =>
      if e = 'e' || e = 'E' then
        let digits := match rest with
          | '+' :: r => r
          | '-' :: r => r
          | _ => rest
        if digits.head?.any Char.isDigit then digits.dropWhile Char.isDigit else fraction
      else fraction
    | [] => fraction
  match exponent with
  | 'L' :: rest => rest
  | _ => exponent

/-- The first symbol, if the text starts with one, and the rest; `none` for a text without symbols. -/
def next? (c : Char) (cs : List Char) : Option (Option Symbol × List Char) :=
  let text := c :: cs
  if c = ' ' || c = '\t' || c = '\n' || c = '\r' then some (none, cs)
  else if c = '-' && cs.head? = some '-' then some (none, cs.dropWhile (· ≠ '\n'))
  else if c = '/' && cs.head? = some '*' then
    (afterComment? 1 ' ' cs.tail).map fun rest => (none, rest)
  else if c = '\'' then (afterQuote? c cs).map fun (_, rest) => (some .string, rest)
  else if (c = 'x' || c = 'X' || c = 'n' || c = 'N') && cs.head? = some '\'' then
    (afterQuote? '\'' cs.tail).map fun (_, rest) => (some .string, rest)
  else if c = '"' || c = '`' || c = '[' then
    (afterQuote? (if c = '[' then ']' else c) cs).map fun (value, rest) =>
      (some (.word (String.ofList value) false), rest)
  else if c = '0' && cs.head? = some 'x' then
    some (some .string, cs.tail.dropWhile fun d =>
      d.isDigit || ('a' ≤ d && d ≤ 'f') || ('A' ≤ d && d ≤ 'F'))
  else if c.isDigit || (c = '.' && cs.head?.any Char.isDigit) then
    some (some .number, afterNumber text)
  else if c = '?' then some (some .placeholder, cs.dropWhile Text.isNumeric)
  else match operators.find? (·.toList.isPrefixOf text) with
    | some op => some (some (.operator op), text.drop op.length)
    | none =>
      if isWordStart c then
        some (some (.word (String.ofList (text.takeWhile isWordPart)) true),
          text.dropWhile isWordPart)
      else if Text.isBlank c then some (none, cs)
      else none

/-- The symbols of a text, at most `fuel` of them and blanks. -/
def symbolsWithin : Nat → List Char → Option (List Symbol)
  | _, [] => some []
  | 0, _ :: _ => none
  | fuel + 1, c :: cs =>
    match next? c cs with
    | none => none
    | some (none, rest) => symbolsWithin fuel rest
    | some (some symbol, rest) => (symbolsWithin fuel rest).map (symbol :: ·)

/-- Each step takes at least one character, so the length of the text bounds their number. -/
def symbols? (s : List Char) : Option (List Symbol) := symbolsWithin s.length s

end DataAccess.Sql.Grammar
