import DataAccess.Reference.Issue
import DataAccess.Sql.Lexeme

/-!
The tokens that the reference database reads. A word is a keyword only where the grammar asks for
one; `reserved` words are never names.
-/

set_option autoImplicit false

namespace DataAccess.Reference

inductive TokenKind where
  /-- A bare word that can be a name. -/
  | word
  | reserved
  /-- A word that describes a join; it can be a name where no join can start. -/
  | join
  | indexed
  /-- A name in quotes, with the opening mark. -/
  | quoted (mark : Char)
  | text
  | blob
  | integer
  | float
  /-- A number with digit separators. -/
  | separated
  | variable
  | symbol
  | illegal
  /-- The end of the text. -/
  | finish
deriving DecidableEq, Repr

structure Token where
  kind : TokenKind
  /-- The token as it is written. -/
  text : String
  /-- What a quoted token denotes, or else the text. -/
  value : String
  /-- The number of bytes before the token. -/
  offset : Nat
deriving DecidableEq, Repr

namespace Token

def reservedWords : List String :=
  ["ADD", "ALL", "ALTER", "AND", "AS", "AUTOINCREMENT", "BETWEEN", "CASE", "CHECK", "COLLATE",
    "COMMIT", "CONSTRAINT", "CREATE", "DEFAULT", "DEFERRABLE", "DELETE", "DISTINCT", "DROP", "ELSE",
    "ESCAPE", "EXCEPT", "EXISTS", "FOREIGN", "FROM", "GROUP", "HAVING", "IN", "INDEX", "INSERT",
    "INTERSECT", "INTO", "IS", "ISNULL", "JOIN", "LIMIT", "NOT", "NOTHING", "NOTNULL", "NULL", "ON",
    "OR", "ORDER", "PRIMARY", "REFERENCES", "RETURNING", "SELECT", "SET", "TABLE", "THEN", "TO",
    "TRANSACTION", "UNION", "UNIQUE", "UPDATE", "USING", "VALUES", "WHEN", "WHERE"]

def joinWords : List String := ["CROSS", "FULL", "INNER", "LEFT", "NATURAL", "OUTER", "RIGHT"]

/-- Words that are reserved only where the tokens around them say so. -/
def contextualWords : List String := ["WINDOW", "OVER", "FILTER"]

def kindOfWord (word : String) : TokenKind :=
  let upper := Text.asciiUpper word
  if reservedWords.contains upper then .reserved
  else if joinWords.contains upper then .join
  else if upper = "INDEXED" then .indexed
  else .word

def isBlank (c : Char) : Bool :=
  c = ' ' || c = '\t' || c = '\n' || c = '\x0c' || c = '\r'

/-- Blanks after the first one; a vertical tab is blank only there. -/
def isMoreBlank (c : Char) : Bool := isBlank c || c = '\x0b'

def isNamePart (c : Char) : Bool :=
  c.isAlphanum || c = '_' || c = '$' || 0x80 ≤ c.toNat

def isHexDigit (c : Char) : Bool :=
  c.isDigit || ('a' ≤ c && c ≤ 'f') || ('A' ≤ c && c ≤ 'F')

/-- A run of digits and separators: its rest, and whether a separator occurred. -/
def digitRun (isDigit : Char → Bool) (s : List Char) : List Char × Bool :=
  let part (c : Char) := isDigit c || c = '_'
  (s.dropWhile part, (s.takeWhile part).contains '_')

/-- A number that runs into a name is illegal. -/
def afterNumber (kind : TokenKind) (rest : List Char) : TokenKind × List Char :=
  if rest.head?.any isNamePart then (.illegal, rest.dropWhile isNamePart) else (kind, rest)

def number (s : List Char) : TokenKind × List Char :=
  match s with
  | '0' :: x :: d :: rest =>
    if (x = 'x' || x = 'X') && isHexDigit d then
      let (rest, hasSeparator) := digitRun isHexDigit rest
      afterNumber (if hasSeparator then .separated else .integer) rest
    else decimal s
  | _ => decimal s
where
  decimal (s : List Char) : TokenKind × List Char :=
    let (whole, separated₁) := digitRun Char.isDigit s
    let (fraction, isFraction, separated₂) := match whole with
      | '.' :: rest => let (r, sep) := digitRun Char.isDigit rest; (r, true, sep)
      | _ => (whole, false, false)
    let digits? := match fraction with
      | e :: rest =>
        if e = 'e' || e = 'E' then
          match rest with
          | sign :: d :: r =>
            if (sign = '+' || sign = '-') && d.isDigit then some r
            else if sign.isDigit then some (d :: r) else none
          | [d] => if d.isDigit then some [] else none
          | [] => none
        else none
      | [] => none
    let (rest, isExponent, separated₃) := match digits? with
      | some digits => let (r, sep) := digitRun Char.isDigit digits; (r, true, sep)
      | none => (fraction, false, false)
    let kind : TokenKind :=
      if separated₁ || separated₂ || separated₃ then .separated
      else if isFraction || isExponent then .float
      else .integer
    afterNumber kind rest

/-- The argument in parentheses that ends a variable. -/
def variableArgument : List Char → TokenKind × List Char
  | [] => (.illegal, [])
  | c :: rest =>
    if c = ')' then (.variable, rest)
    else if isMoreBlank c then (.illegal, c :: rest)
    else variableArgument rest

/-- The name of a variable after its mark; `named` tells whether it already has a character. -/
def variableName (named : Bool) : List Char → TokenKind × List Char
  | [] => (if named then .variable else .illegal, [])
  | c :: rest =>
    if isNamePart c then variableName true rest
    else if c = '(' && named then variableArgument rest
    else if c = ':' then
      match rest with
      | ':' :: more => variableName named more
      | _ => (if named then .variable else .illegal, c :: rest)
    else (if named then .variable else .illegal, c :: rest)

/-- A blob after `x'`. -/
def blob (s : List Char) : TokenKind × List Char :=
  let digits := s.takeWhile isHexDigit
  match s.dropWhile isHexDigit with
  | '\'' :: rest => (if digits.length % 2 = 0 then .blob else .illegal, rest)
  | rest => (.illegal, (rest.dropWhile (· ≠ '\'')).drop 1)

/-- The operators and punctuation marks, longer ones before their beginnings. -/
def symbols : List String :=
  ["->>", "->", "==", "<=", "<>", "<<", ">=", ">>", "!=", "||", "(", ")", ";", "+", "-", "*", "/",
    "%", "=", "<", ">", "|", ",", "&", "~", "."]

/-- The first token, if it is no blank, with the characters after it. -/
def next (c : Char) (cs : List Char) : Option TokenKind × List Char :=
  let one (found : TokenKind × List Char) : Option TokenKind × List Char := (some found.1, found.2)
  if isBlank c then (none, cs.dropWhile isMoreBlank)
  else if c = '\ufeff' then (none, cs)
  else if c = '-' && cs.head? = some '-' then (none, cs.dropWhile (· ≠ '\n'))
  else if c = '/' && cs.head? = some '*' && !cs.tail.isEmpty then
    (none, (Sql.commentRun cs.tail).rest)
  else if c = '\'' || c = '"' || c = '`' then
    let run := Sql.quotedRun c cs
    (some (if !run.closed then .illegal else if c = '\'' then .text else .quoted c), run.rest)
  else if c = '[' then
    let run := Sql.bracketRun cs
    (some (if run.closed then .quoted c else .illegal), run.rest)
  else if c.isDigit || (c = '.' && cs.head?.any Char.isDigit) then one (number (c :: cs))
  else if c = '?' then (some .variable, cs.dropWhile Char.isDigit)
  else if c = '$' || c = '@' || c = '#' || c = ':' then one (variableName false cs)
  else if (c = 'x' || c = 'X') && cs.head? = some '\'' then one (blob cs.tail)
  else if isNamePart c then
    let text := c :: cs
    (some (kindOfWord (String.ofList (text.takeWhile isNamePart))), text.dropWhile isNamePart)
  else match symbols.find? (·.toList.isPrefixOf (c :: cs)) with
    | some symbol => (some .symbol, (c :: cs).drop symbol.length)
    | none => (some .illegal, cs)

/-- What a quoted token denotes. -/
def denoted (kind : TokenKind) (text : List Char) : List Char :=
  match kind, text with
  | .quoted '[', _ :: rest => (Sql.bracketRun rest).value
  | .quoted _, mark :: rest | .text, mark :: rest => (Sql.quotedRun mark rest).value
  | _, _ => text

def byteCount (s : List Char) : Nat := s.foldl (fun n c => n + c.utf8Size) 0

/-- The tokens of a text that starts at byte `offset`, at most `fuel` of them and blanks. -/
def scanWithin : Nat → Nat → List Char → List Token
  | fuel + 1, offset, c :: cs =>
    let (kind?, rest) := next c cs
    let taken := (c :: cs).take (cs.length + 1 - rest.length)
    let more := scanWithin fuel (offset + byteCount taken) rest
    match kind? with
    | some kind => ⟨kind, String.ofList taken, String.ofList (denoted kind taken), offset⟩ :: more
    | none => more
  | _, offset, s => [⟨.finish, "", "", offset + byteCount s⟩]

/-- Whether a token can be read as a plain name. -/
def couldBeName (t : Token) : Bool :=
  match t.kind with
  | .word | .join | .quoted _ | .text => true
  | _ => false

/-- Whether a contextual word is a keyword between these tokens. -/
def reservedBetween (previous : Option Token) (word : String) (following : List Token) : Bool :=
  let closes := previous.any (·.text = ")")
  let opens := following.head?.any (·.text = "(")
  match word with
  | "WINDOW" =>
    following.head?.any couldBeName && (following[1]?).any (Text.sameWord ·.text "AS")
  | "OVER" => closes && (opens || following.head?.any couldBeName)
  | "FILTER" => closes && opens
  | _ => false

def reserveInContext : Option Token → List Token → List Token
  | _, [] => []
  | previous, t :: rest =>
    let upper := Text.asciiUpper t.text
    let isReserved := t.kind = .word && contextualWords.contains upper &&
      reservedBetween previous upper rest
    (if isReserved then { t with kind := .reserved } else t) :: reserveInContext (some t) rest

/-- The tokens of a text up to its first zero character, and the end of it. -/
def scan (s : String) : List Token :=
  let text := s.toList.takeWhile (· ≠ '\x00')
  reserveInContext none (scanWithin text.length 0 text)

def isSymbol (t : Token) (symbol : String) : Bool := t.kind = .symbol && t.text = symbol

/-- Whether the token spells a keyword where the grammar asks for it. -/
def isKeyword (t : Token) (keyword : String) : Bool :=
  (match t.kind with
    | .word => !contextualWords.contains keyword
    | .reserved | .join | .indexed => true
    | _ => false) && Text.sameWord t.text keyword

/-- A bare or quoted name. -/
def isPlainName (t : Token) : Bool :=
  match t.kind with
  | .word | .quoted _ => true
  | _ => false

/-- A name, or a text that stands for one. -/
def isPlainNameOrText (t : Token) : Bool := t.isPlainName || t.kind = .text

/-- What names an operand of an expression. -/
def isOperandName (t : Token) : Bool := t.isPlainName || t.kind = .indexed || t.kind = .join

/-- What names a table or a column. -/
def isName (t : Token) : Bool := t.isOperandName || t.kind = .text

/-- The end of a statement. -/
def isEnd (t : Token) : Bool := t.kind = .finish || t.isSymbol ";"

/-- The failure of a statement that cannot go on with this token. -/
def refusal (t : Token) : Failure :=
  match t.kind with
  | .finish => ⟨.incomplete, none⟩
  | .illegal => ⟨.unrecognized t.text, some t.offset⟩
  | _ => ⟨.unexpected t.text, some t.offset⟩

end Token

end DataAccess.Reference
