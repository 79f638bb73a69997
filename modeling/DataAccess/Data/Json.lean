import DataAccess.Data.Value

/-!
JSON texts: reading a whole text, and printing on one line or indented by two spaces.
-/

set_option autoImplicit false

namespace DataAccess.Data.Json

/-- Arrays and objects nest at most this deep. -/
def maxDepth : Nat := 127

def isBlank (c : Char) : Bool := c = ' ' || c = '\t' || c = '\n' || c = '\r'

def skipBlanks (s : List Char) : List Char := s.dropWhile isBlank

def hexDigit? (c : Char) : Option Nat :=
  if c.isDigit then some (c.toNat - '0'.toNat)
  else if 'a' ≤ c && c ≤ 'f' then some (c.toNat - 'a'.toNat + 10)
  else if 'A' ≤ c && c ≤ 'F' then some (c.toNat - 'A'.toNat + 10)
  else none

def hex4? : List Char → Option (Nat × List Char)
  | a :: b :: c :: d :: rest => do
    let a ← hexDigit? a
    let b ← hexDigit? b
    let c ← hexDigit? c
    let d ← hexDigit? d
    return (((a * 16 + b) * 16 + c) * 16 + d, rest)
  | _ => none

/-- The character of an escape after `\u`; surrogates have to come in pairs. -/
def unicodeEscape? (s : List Char) : Option (Char × List Char) := do
  let (first, rest) ← hex4? s
  if first < 0xd800 || 0xdfff < first then return (Char.ofNat first, rest)
  if 0xdbff < first then none
  match rest with
  | '\\' :: 'u' :: more =>
    let (second, rest) ← hex4? more
    if second < 0xdc00 || 0xdfff < second then none
    return (Char.ofNat (0x10000 + (first - 0xd800) * 0x400 + (second - 0xdc00)), rest)
  | _ => none

/-- The text after an opening quote, and what follows its closing quote. -/
def stringBody : Nat → List Char → Option (List Char × List Char)
  | 0, _ => none
  | _, [] => none
  | n + 1, c :: rest =>
    if c = '"' then some ([], rest)
    else if c.toNat < 0x20 then none
    else if c = '\\' then
      match rest with
      | 'u' :: more =>
        match unicodeEscape? more with
        | some (d, rest) => (stringBody n rest).map fun (s, r) => (d :: s, r)
        | none => none
      | e :: more =>
        let plain := [('"', '"'), ('\\', '\\'), ('/', '/'), ('b', '\x08'), ('f', '\x0c'),
          ('n', '\n'), ('r', '\r'), ('t', '\t')]
        match plain.find? (·.1 = e) with
        | some (_, d) => (stringBody n more).map fun (s, r) => (d :: s, r)
        | none => none
      | [] => none
    else (stringBody n rest).map fun (s, r) => (c :: s, r)

def string? (s : List Char) : Option (String × List Char) :=
  (stringBody (s.length + 1) s).map fun (value, rest) => (String.ofList value, rest)

/-- Digits, and what follows them; there has to be one. -/
def digits? (s : List Char) : Option (List Char × List Char) :=
  let ds := s.takeWhile Char.isDigit
  if ds.isEmpty then none else some (ds, s.dropWhile Char.isDigit)

def natOf (digits : List Char) : Nat :=
  digits.foldl (fun n c => 10 * n + (c.toNat - '0'.toNat)) 0

/-- Integers between the least signed and the largest unsigned of 64 bits; other numbers keep their
text. -/
def number? (s : List Char) : Option (Value × List Char) := do
  let (negative, s) := match s with
    | '-' :: rest => (true, rest)
    | _ => (false, s)
  let (whole, rest) ← match s with
    | '0' :: rest => some (['0'], rest)
    | _ => digits? s
  if whole = ['0'] && rest.head?.any Char.isDigit then none
  let (fraction, rest) ← match rest with
    | '.' :: more => (digits? more).map fun (ds, r) => ('.' :: ds, r)
    | _ => some ([], rest)
  let (exponent, rest) ← match rest with
    | e :: more =>
      if e = 'e' || e = 'E' then
        let (sign, more) := match more with
          | '+' :: r => (['+'], r)
          | '-' :: r => (['-'], r)
          | _ => ([], more)
        (digits? more).map fun (ds, r) => (e :: (sign ++ ds), r)
      else some ([], rest)
    | [] => some ([], rest)
  let sign := if negative then ['-'] else []
  let value : Int := if negative then -(natOf whole : Int) else natOf whole
  if fraction.isEmpty && exponent.isEmpty && -0x8000000000000000 ≤ value
      && value < 0x10000000000000000 && !(negative && value = 0) then
    return (.int value, rest)
  return (.decimal (String.ofList (sign ++ whole ++ fraction ++ exponent)), rest)

def afterWord? (word : String) (value : Value) (s : List Char) : Option (Value × List Char) :=
  if word.toList.isPrefixOf s then some (value, s.drop word.length) else none

mutual

/-- A value; `fuel` bounds the number of steps and `depth` the nesting. -/
def value? (fuel depth : Nat) (s : List Char) : Option (Value × List Char) :=
  match fuel with
  | 0 => none
  | fuel + 1 =>
    match skipBlanks s with
    | 'n' :: rest => afterWord? "ull" .null rest
    | 't' :: rest => afterWord? "rue" (.bool true) rest
    | 'f' :: rest => afterWord? "alse" (.bool false) rest
    | '"' :: rest => (string? rest).map fun (text, r) => (.string text, r)
    | '[' :: rest =>
      match depth, skipBlanks rest with
      | 0, _ => none
      | _ + 1, ']' :: rest => some (.list [], rest)
      | depth + 1, rest => (items? fuel depth rest).map fun (xs, r) => (.list xs, r)
    | '\x7b' :: rest =>
      match depth, skipBlanks rest with
      | 0, _ => none
      | _ + 1, '\x7d' :: rest => some (.object [], rest)
      | depth + 1, rest => (members? fuel depth rest).map fun (ms, r) => (.object ms, r)
    | rest => number? rest

def items? (fuel depth : Nat) (s : List Char) : Option (List Value × List Char) :=
  match fuel with
  | 0 => none
  | fuel + 1 =>
    match value? fuel depth s with
    | none => none
    | some (x, rest) =>
      match skipBlanks rest with
      | ',' :: rest => (items? fuel depth rest).map fun (xs, r) => (x :: xs, r)
      | ']' :: rest => some ([x], rest)
      | _ => none

def members? (fuel depth : Nat) (s : List Char) : Option (List (String × Value) × List Char) :=
  match fuel with
  | 0 => none
  | fuel + 1 =>
    match skipBlanks s with
    | '"' :: rest =>
      match string? rest with
      | none => none
      | some (key, rest) =>
        match skipBlanks rest with
        | ':' :: rest =>
          match value? fuel depth rest with
          | none => none
          | some (x, rest) =>
            match skipBlanks rest with
            | ',' :: rest => (members? fuel depth rest).map fun (ms, r) => ((key, x) :: ms, r)
            | '\x7d' :: rest => some ([(key, x)], rest)
            | _ => none
        | _ => none
    | _ => none

end

/-- Reads a text that is one value. -/
def parse? (text : String) : Option Value :=
  let s := text.toList
  match value? (2 * s.length + 2) maxDepth s with
  | some (v, rest) => if (skipBlanks rest).isEmpty then some v else none
  | none => none

def escape (c : Char) : List Char :=
  match c with
  | '"' => ['\\', '"']
  | '\\' => ['\\', '\\']
  | '\n' => ['\\', 'n']
  | '\r' => ['\\', 'r']
  | '\t' => ['\\', 't']
  | '\x08' => ['\\', 'b']
  | '\x0c' => ['\\', 'f']
  | c =>
    if c.toNat < 0x20 then
      let hex := Nat.toDigits 16 c.toNat
      ['\\', 'u'] ++ List.replicate (4 - hex.length) '0' ++ hex
    else [c]

def quote (s : String) : String := String.ofList ('"' :: (s.toList.flatMap escape ++ ['"']))

mutual

/-- A value on one line. -/
def compact : Value → String
  | .null => "null"
  | .bool b => toString b
  | .int i => toString i
  | .decimal text => text
  | .date text => quote text
  | .string s => quote s
  | .list items => "[" ++ ",".intercalate (compactItems items) ++ "]"
  | .object members => "\x7b" ++ ",".intercalate (compactMembers members) ++ "\x7d"

def compactItems : List Value → List String
  | [] => []
  | v :: vs => compact v :: compactItems vs

def compactMembers : List (String × Value) → List String
  | [] => []
  | (key, v) :: more => (quote key ++ ":" ++ compact v) :: compactMembers more

end

def newLine (indent : Nat) : String := "\n" ++ String.ofList (List.replicate (2 * indent) ' ')

/-- Items on lines of their own, between brackets. -/
def block (indent : Nat) (opening closing : String) (items : List String) : String :=
  match items with
  | [] => opening ++ closing
  | _ =>
    opening ++ newLine (indent + 1) ++ ("," ++ newLine (indent + 1)).intercalate items ++
      newLine indent ++ closing

mutual

/-- A value over several lines. -/
def pretty (indent : Nat) : Value → String
  | .list items => block indent "[" "]" (prettyItems (indent + 1) items)
  | .object members => block indent "\x7b" "\x7d" (prettyMembers (indent + 1) members)
  | .null => "null"
  | .bool b => toString b
  | .int i => toString i
  | .decimal text => text
  | .date text => quote text
  | .string s => quote s

def prettyItems (indent : Nat) : List Value → List String
  | [] => []
  | v :: vs => pretty indent v :: prettyItems indent vs

def prettyMembers (indent : Nat) : List (String × Value) → List String
  | [] => []
  | (key, v) :: more => (quote key ++ ": " ++ pretty indent v) :: prettyMembers indent more

end

end DataAccess.Data.Json
