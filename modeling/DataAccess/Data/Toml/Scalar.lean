import DataAccess.Data.Json

/-!
The scalars of TOML texts: strings, numbers, dates and times. Readers return the rest of the text.
-/

set_option autoImplicit false

namespace DataAccess.Data.Toml

/-- A reader of the start of a text. -/
abbrev Reader (α : Type) := List Char → Option (α × List Char)

def isBlank (c : Char) : Bool := c = ' ' || c = '\t'

def skipBlanks (s : List Char) : List Char := s.dropWhile isBlank

/-- Characters that stand for themselves in comments and strings. -/
def isPlain (c : Char) : Bool := c = '\t' || (0x20 ≤ c.toNat && c.toNat ≠ 0x7f)

/-- The rest of a text after a line break. -/
def newLine? : List Char → Option (List Char)
  | '\n' :: rest => some rest
  | '\r' :: '\n' :: rest => some rest
  | _ => none

/-- The rest of a text after a comment, if there is one. -/
def skipComment : List Char → List Char
  | '#' :: rest => rest.dropWhile isPlain
  | s => s

/-- The end of a line: blanks, perhaps a comment, then a line break or the end of the text. -/
def lineEnd? (s : List Char) : Option (List Char) :=
  match skipComment (skipBlanks s) with
  | [] => some []
  | rest => newLine? rest

/-- A number of exactly `n` digits in the given base. -/
def fixedDigits? (digit? : Char → Option Nat) (base : Nat) : (n value : Nat) → Reader Nat
  | 0, value, s => some (value, s)
  | n + 1, value, c :: rest =>
    match digit? c with
    | some d => fixedDigits? digit? base n (base * value + d) rest
    | none => none
  | _ + 1, _, [] => none

def digit? (c : Char) : Option Nat := if c.isDigit then some (c.toNat - '0'.toNat) else none

/-- The character of an escape after its backslash. -/
def escape? : Reader Char
  | 'b' :: rest => some ('\x08', rest)
  | 't' :: rest => some ('\t', rest)
  | 'n' :: rest => some ('\n', rest)
  | 'f' :: rest => some ('\x0c', rest)
  | 'r' :: rest => some ('\r', rest)
  | '"' :: rest => some ('"', rest)
  | '\\' :: rest => some ('\\', rest)
  | 'u' :: rest => scalar? 4 rest
  | 'U' :: rest => scalar? 8 rest
  | _ => none
where
  scalar? (n : Nat) (s : List Char) : Option (Char × List Char) := do
    let (code, rest) ← fixedDigits? Json.hexDigit? 16 n 0 s
    if code < 0xd800 || (0xdfff < code && code < 0x110000) then some (Char.ofNat code, rest)
    else none

/-- Puts a character before a text that was read. -/
def consChar (c : Char) (r : Option (List Char × List Char)) : Option (List Char × List Char) :=
  r.map fun (s, rest) => (c :: s, rest)

/-- A string on one line, after its opening quote. -/
def basicBody : Nat → Reader (List Char)
  | n + 1, c :: rest =>
    if c = '"' then some ([], rest)
    else if c = '\\' then
      match escape? rest with
      | some (d, rest) => consChar d (basicBody n rest)
      | none => none
    else if isPlain c then consChar c (basicBody n rest)
    else none
  | _, _ => none

/-- A literal string on one line, after its opening quote. -/
def literalBody : Reader (List Char)
  | [] => none
  | c :: rest =>
    if c = '\'' then some ([], rest)
    else if isPlain c then consChar c (literalBody rest)
    else none

/-- The end of a string over several lines: three quotes, before which one or two more belong to the
string. -/
def closing? (quote : Char) (s : List Char) : Option (List Char × List Char) :=
  let run := (s.takeWhile (· = quote)).length
  if run < 3 then none
  else
    let extra := min (run - 3) 2
    some (List.replicate extra quote, s.drop (3 + extra))

/-- The rest after a backslash at the end of a line: all blanks and line breaks are left out. -/
def skipLineBreak? (s : List Char) : Option (List Char) :=
  (newLine? (skipBlanks s)).map (·.dropWhile fun c => isBlank c || c = '\n' || c = '\r')

/-- A string over several lines, after its opening quotes. -/
def longBasicBody : Nat → Reader (List Char)
  | n + 1, s =>
    match closing? '"' s with
    | some end_ => some end_
    | none =>
      match newLine? s, s with
      | some rest, _ => consChar '\n' (longBasicBody n rest)
      | none, '\\' :: rest =>
        match skipLineBreak? rest with
        | some rest => longBasicBody n rest
        | none =>
          match escape? rest with
          | some (d, rest) => consChar d (longBasicBody n rest)
          | none => none
      | none, c :: rest => if isPlain c then consChar c (longBasicBody n rest) else none
      | none, [] => none
  | 0, _ => none

/-- A literal string over several lines, after its opening quotes. -/
def longLiteralBody : Nat → Reader (List Char)
  | n + 1, s =>
    match closing? '\'' s with
    | some end_ => some end_
    | none =>
      match newLine? s, s with
      | some rest, _ => consChar '\n' (longLiteralBody n rest)
      | none, c :: rest => if isPlain c then consChar c (longLiteralBody n rest) else none
      | none, [] => none
  | 0, _ => none

/-- The text without a line break at its start. -/
def dropNewLine (s : List Char) : List Char := (newLine? s).getD s

def lineString? : Reader String := fun s => do
  let (body, rest) ← match s with
    | '"' :: rest => basicBody (rest.length + 1) rest
    | '\'' :: rest => literalBody rest
    | _ => none
  return (String.ofList body, rest)

def string? : Reader String := fun s => do
  match s with
  | '"' :: '"' :: '"' :: rest =>
    let (body, rest) ← longBasicBody (rest.length + 1) (dropNewLine rest)
    return (String.ofList body, rest)
  | '\'' :: '\'' :: '\'' :: rest =>
    let (body, rest) ← longLiteralBody (rest.length + 1) (dropNewLine rest)
    return (String.ofList body, rest)
  | _ => lineString? s

/-- Digits with single underscores between them; the underscores are left out. -/
def moreDigits (isDigit : Char → Bool) : List Char → List Char × List Char
  | [] => ([], [])
  | '_' :: c :: rest =>
    if isDigit c then
      let (ds, rest) := moreDigits isDigit rest
      (c :: ds, rest)
    else ([], '_' :: c :: rest)
  | c :: rest =>
    if isDigit c then
      let (ds, rest) := moreDigits isDigit rest
      (c :: ds, rest)
    else ([], c :: rest)

def digits? (isDigit : Char → Bool) : Reader (List Char)
  | [] => none
  | c :: rest =>
    if isDigit c then
      let (ds, rest) := moreDigits isDigit rest
      some (c :: ds, rest)
    else none

/-- An integer of 64 bits. -/
def intValue? (i : Int) : Option Value :=
  if -0x8000000000000000 ≤ i ∧ i < 0x8000000000000000 then some (.int i) else none

/-- An unsigned integer in base 2, 8 or 16, after its mark. -/
def based? (base : Nat) : Reader Value := fun s => do
  let value? (c : Char) := (Json.hexDigit? c).filter (· < base)
  let (ds, rest) ← digits? (value? · |>.isSome) s
  let n := ds.foldl (fun n c => base * n + (value? c).getD 0) 0
  return (← intValue? n, rest)

def fraction? : Reader (List Char)
  | '.' :: rest => digits? Char.isDigit rest
  | _ => none

def exponent? : Reader (List Char)
  | c :: rest =>
    if c = 'e' || c = 'E' then
      digits? Char.isDigit (match rest with
        | '+' :: r => r
        | '-' :: r => r
        | r => r)
    else none
  | [] => none

/-- Whether a text starts with a word. -/
def afterWord? (word : String) (s : List Char) : Option (List Char) :=
  if word.toList.isPrefixOf s then some (s.drop word.length) else none

/-- The characters that `rest` leaves of `s`. -/
def consumed (s rest : List Char) : String := String.ofList (s.take (s.length - rest.length))

/-- A decimal number after its sign. -/
def decimal? (negative : Bool) : Reader Value := fun s => do
  let (whole, rest) ← match s with
    | '0' :: rest => some (['0'], rest)
    | _ => digits? Char.isDigit s
  match fraction? rest, exponent? rest with
  | some (_, more), _ =>
    let after := match exponent? more with
      | some (_, r) => r
      | none => more
    return (.decimal (consumed s after), after)
  | none, some (_, more) => return (.decimal (consumed s more), more)
  | none, none =>
    let n : Int := Json.natOf whole
    return (← intValue? (if negative then -n else n), rest)

def number? : Reader Value := fun s =>
  let signed (negative : Bool) (s : List Char) :=
    match afterWord? "inf" s, afterWord? "nan" s with
    | some rest, _ => some (.decimal "inf", rest)
    | _, some rest => some (.decimal "nan", rest)
    | _, _ => decimal? negative s
  match s with
  | '+' :: rest => signed false rest
  | '-' :: rest => signed true rest
  | '0' :: 'x' :: rest => based? 16 rest
  | '0' :: 'o' :: rest => based? 8 rest
  | '0' :: 'b' :: rest => based? 2 rest
  | _ => signed false s

def daysIn (year month : Nat) : Nat :=
  let leap := year % 4 = 0 && (year % 100 ≠ 0 || year % 400 = 0)
  if month = 2 then (if leap then 29 else 28)
  else if month = 4 || month = 6 || month = 9 || month = 11 then 30
  else 31

def twoDigits? : Reader Nat := fixedDigits? digit? 10 2 0

def colon? : List Char → Option (List Char)
  | ':' :: rest => some rest
  | _ => none

/-- The rest of a text after a date. -/
def date? (s : List Char) : Option (List Char) := do
  let (year, s) ← fixedDigits? digit? 10 4 0 s
  let '-' :: s := s | none
  let (month, s) ← twoDigits? s
  let '-' :: s := s | none
  let (day, s) ← twoDigits? s
  if 1 ≤ month && month ≤ 12 && 1 ≤ day && day ≤ daysIn year month then some s else none

/-- The rest of a text after hours and minutes. -/
def clock? (s : List Char) : Option (List Char) := do
  let (hour, s) ← twoDigits? s
  let s ← colon? s
  let (minute, s) ← twoDigits? s
  if hour < 24 && minute < 60 then some s else none

/-- The rest of a text after a time of day. -/
def time? (s : List Char) : Option (List Char) := do
  let s ← clock? s
  let s ← colon? s
  let (second, s) ← twoDigits? s
  if 60 < second then none
  match s with
  | '.' :: c :: rest => if c.isDigit then some (rest.dropWhile Char.isDigit) else some s
  | _ => some s

/-- The rest of a text after an offset from universal time, if there is one. -/
def skipOffset? : List Char → Option (List Char)
  | 'Z' :: rest => some rest
  | 'z' :: rest => some rest
  | '+' :: rest => clock? rest
  | '-' :: rest => clock? rest
  | s => some s

/-- A date, a time, or both. -/
def moment? : Reader Value := fun s => do
  let rest ← match date? s with
    | none => time? s
    | some afterDate =>
      match afterDate with
      | c :: more =>
        if c = 'T' || c = 't' || c = ' ' then
          match time? more with
          | some afterTime => skipOffset? afterTime
          | none => some afterDate
        else some afterDate
      | [] => some []
  return (.date (consumed s rest), rest)

end DataAccess.Data.Toml
