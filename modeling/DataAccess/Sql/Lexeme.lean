import DataAccess.Text.CharClass

/-!
Lexemes of query text. `lexeme` splits off the first one; the lexemes of a text concatenate to it
(`lexemes_flatten`), however malformed the text is.
-/

set_option autoImplicit false

namespace DataAccess.Sql

inductive TokenKind where
  | word
  /-- An identifier in backticks, double quotes or brackets, with the name it denotes. -/
  | quotedIdent (name : String)
  | stringLit
  | number
  | whitespace
  | newLine
  | comment
  | lParen
  | rParen
  /-- A placeholder: `?`, `?N` or `:name`. -/
  | bind (name : Option String)
  | punct
deriving DecidableEq, Repr, Inhabited

/-- What can be wrong with a token. -/
inductive Fault where
  | unterminatedComment
  | unterminatedString
  | unterminatedIdent
  | malformedBind (text : String)
  | bindIndex (digits : String)
  | missingBindName
  | unmatchedClose
  | unclosedOpen
deriving DecidableEq, Repr

def Fault.message : Fault → String
  | unterminatedComment => "unterminated comment"
  | unterminatedString => "unterminated string literal"
  | unterminatedIdent => "unterminated quoted identifier"
  | malformedBind text => "malformed bind placeholder `" ++ text ++ "`"
  | bindIndex digits => "bind index must be at least 1 in `?" ++ digits ++ "`"
  | missingBindName => "expected a parameter name after ':'"
  | unmatchedClose => "unbalanced ')'"
  | unclosedOpen => "unclosed '('"

/-- A token without its position. -/
structure Lexeme where
  kind : TokenKind
  text : List Char
  fault : Option Fault := none
deriving DecidableEq, Repr

def isIdentStart (c : Char) : Bool := Text.isAlphabetic c || c = '_'

def isIdentPart (c : Char) : Bool := Text.isAlphanumeric c || c = '_' || c = '$'

/-- Blanks that stay on the line. -/
def isSpace (c : Char) : Bool := Text.isBlank c && c ≠ '\n'

def isNumberPart (c : Char) : Bool := c.isAlphanum || c = '.'

/-- A run up to a terminator, with the text it denotes. -/
structure Run where
  text : List Char
  value : List Char
  closed : Bool
  rest : List Char
deriving DecidableEq, Repr

/-- Adds characters before a run. -/
def Run.before (text value : List Char) (run : Run) : Run :=
  { run with text := text ++ run.text, value := value ++ run.value }

/-- The run after an opening quote; a doubled quote denotes one. -/
def quotedRun (quote : Char) : List Char → Run
  | [] => ⟨[], [], false, []⟩
  | [c] => if c = quote then ⟨[c], [], true, []⟩ else ⟨[c], [c], false, []⟩
  | c :: d :: rest =>
    if c = quote then
      if d = quote then (quotedRun quote rest).before [c, d] [quote]
      else ⟨[c], [], true, d :: rest⟩
    else (quotedRun quote (d :: rest)).before [c] [c]

/-- The run after an opening bracket; nothing inside is an escape. -/
def bracketRun : List Char → Run
  | [] => ⟨[], [], false, []⟩
  | c :: rest =>
    if c = ']' then ⟨[c], [], true, rest⟩ else (bracketRun rest).before [c] [c]

/-- The run after the two characters that open a block comment. -/
def commentRun : List Char → Run
  | [] => ⟨[], [], false, []⟩
  | [c] => ⟨[c], [], false, []⟩
  | c :: d :: rest =>
    if c = '*' && d = '/' then ⟨[c, d], [], true, rest⟩
    else (commentRun (d :: rest)).before [c] []

/-- The number that a run of digits denotes. -/
def digitsValue (digits : List Char) : Nat :=
  digits.foldl (fun n c => 10 * n + (c.toNat - '0'.toNat)) 0

/-- The largest index a placeholder can spell. -/
def maxIndex : Nat := 0xFFFFFFFFFFFFFFFF

/-- The index that the digits of a `?N` placeholder spell. -/
def spelledIndex? (digits : List Char) : Option Nat :=
  let n := digitsValue digits
  if digits ≠ [] ∧ digits.all Char.isDigit ∧ 0 < n ∧ n ≤ maxIndex then some n else none

/-- The placeholder after `?`. -/
def positional (cs : List Char) : Lexeme × List Char :=
  let digits := cs.takeWhile Char.isDigit
  let after := cs.dropWhile Char.isDigit
  let junk := after.takeWhile isIdentPart
  let rest := after.dropWhile isIdentPart
  let text := '?' :: (digits ++ junk)
  let fault :=
    if junk ≠ [] then some (.malformedBind (String.ofList text))
    else if digits ≠ [] ∧ spelledIndex? digits = none then some (.bindIndex (String.ofList digits))
    else none
  (⟨.bind none, text, fault⟩, rest)

/-- The placeholder after `:`, or the colon alone. -/
def named (cs : List Char) : Lexeme × List Char :=
  if cs.head?.any isIdentStart then
    let name := cs.takeWhile isIdentPart
    (⟨.bind (some (String.ofList name)), ':' :: name, none⟩, cs.dropWhile isIdentPart)
  else (⟨.punct, [':'], some .missingBindName⟩, cs)

/-- The lexeme of a text whose first character is `c`, and the text after it. -/
def lexeme (c : Char) (cs : List Char) : Lexeme × List Char :=
  if c = '\n' then (⟨.newLine, [c], none⟩, cs)
  else if Text.isBlank c then
    (⟨.whitespace, c :: cs.takeWhile isSpace, none⟩, cs.dropWhile isSpace)
  else if c = '-' ∧ cs.head? = some '-' then
    (⟨.comment, c :: cs.takeWhile (· ≠ '\n'), none⟩, cs.dropWhile (· ≠ '\n'))
  else if c = '/' ∧ cs.head? = some '*' then
    let run := commentRun cs.tail
    (⟨.comment, c :: '*' :: run.text, if run.closed then none else some .unterminatedComment⟩,
      run.rest)
  else if c = '\'' then
    let run := quotedRun c cs
    (⟨.stringLit, c :: run.text, if run.closed then none else some .unterminatedString⟩, run.rest)
  else if c = '"' ∨ c = '`' then
    let run := quotedRun c cs
    (⟨.quotedIdent (String.ofList run.value), c :: run.text,
      if run.closed then none else some .unterminatedIdent⟩, run.rest)
  else if c = '[' then
    let run := bracketRun cs
    (⟨.quotedIdent (String.ofList run.value), c :: run.text,
      if run.closed then none else some .unterminatedIdent⟩, run.rest)
  else if c = '?' then positional cs
  else if c = ':' then named cs
  else if c = '(' then (⟨.lParen, [c], none⟩, cs)
  else if c = ')' then (⟨.rParen, [c], none⟩, cs)
  else if c.isDigit then
    (⟨.number, c :: cs.takeWhile isNumberPart, none⟩, cs.dropWhile isNumberPart)
  else if isIdentStart c then
    (⟨.word, c :: cs.takeWhile isIdentPart, none⟩, cs.dropWhile isIdentPart)
  else (⟨.punct, [c], none⟩, cs)

theorem quotedRun_append (quote : Char) (cs : List Char) :
    (quotedRun quote cs).text ++ (quotedRun quote cs).rest = cs := by
  fun_induction quotedRun quote cs <;> simp_all [Run.before]

theorem bracketRun_append (cs : List Char) : (bracketRun cs).text ++ (bracketRun cs).rest = cs := by
  fun_induction bracketRun cs <;> simp_all [Run.before]

theorem commentRun_append (cs : List Char) : (commentRun cs).text ++ (commentRun cs).rest = cs := by
  fun_induction commentRun cs <;> simp_all [Run.before]

/-- A split of a text into a first lexeme and the rest that loses nothing. -/
def Splits (split : Lexeme × List Char) (text : List Char) : Prop :=
  split.1.text ++ split.2 = text ∧ split.1.text ≠ []

theorem Splits.ite {p : Prop} [Decidable p] {a b : Lexeme × List Char} {text : List Char}
    (ha : p → Splits a text) (hb : ¬p → Splits b text) : Splits (if p then a else b) text := by
  split
  · exact ha ‹_›
  · exact hb ‹_›

theorem positional_splits (cs : List Char) : Splits (positional cs) ('?' :: cs) := by
  simp [Splits, positional, List.takeWhile_append_dropWhile]

theorem named_splits (cs : List Char) : Splits (named cs) (':' :: cs) :=
  Splits.ite (fun _ => by simp [Splits, List.takeWhile_append_dropWhile])
    fun _ => by simp [Splits]

theorem lexeme_splits (c : Char) (cs : List Char) : Splits (lexeme c cs) (c :: cs) := by
  refine Splits.ite (fun _ => by simp [Splits]) fun _ => ?_
  refine Splits.ite (fun _ => by simp [Splits, List.takeWhile_append_dropWhile]) fun _ => ?_
  refine Splits.ite (fun _ => by simp [Splits, List.takeWhile_append_dropWhile]) fun _ => ?_
  refine Splits.ite (fun h => ?_) fun _ => ?_
  · cases cs with
    | nil => simp at h
    | cons d ds =>
      obtain ⟨rfl, rfl⟩ : c = '/' ∧ d = '*' := by simpa using h
      simp [Splits, commentRun_append]
  refine Splits.ite (fun _ => by simp [Splits, quotedRun_append]) fun _ => ?_
  refine Splits.ite (fun _ => by simp [Splits, quotedRun_append]) fun _ => ?_
  refine Splits.ite (fun _ => by simp [Splits, bracketRun_append]) fun _ => ?_
  refine Splits.ite (fun h => h ▸ positional_splits cs) fun _ => ?_
  refine Splits.ite (fun h => h ▸ named_splits cs) fun _ => ?_
  refine Splits.ite (fun _ => by simp [Splits]) fun _ => ?_
  refine Splits.ite (fun _ => by simp [Splits]) fun _ => ?_
  refine Splits.ite (fun _ => by simp [Splits, List.takeWhile_append_dropWhile]) fun _ => ?_
  refine Splits.ite (fun _ => by simp [Splits, List.takeWhile_append_dropWhile]) fun _ => ?_
  simp [Splits]

/-- Nothing of the text is lost by splitting off a lexeme. -/
theorem lexeme_append (c : Char) (cs : List Char) :
    (lexeme c cs).1.text ++ (lexeme c cs).2 = c :: cs := (lexeme_splits c cs).1

theorem lexeme_text_ne_nil (c : Char) (cs : List Char) : (lexeme c cs).1.text ≠ [] :=
  (lexeme_splits c cs).2

theorem lexeme_rest_length_lt (c : Char) (cs : List Char) :
    (lexeme c cs).2.length < (c :: cs).length := by
  have happ := congrArg List.length (lexeme_append c cs)
  have hne := List.length_pos_iff.2 (lexeme_text_ne_nil c cs)
  simp only [List.length_append] at happ
  omega

/-- The lexemes of a text in order. -/
def lexemes : List Char → List Lexeme
  | [] => []
  | c :: cs => (lexeme c cs).1 :: lexemes (lexeme c cs).2
termination_by cs => cs.length
decreasing_by exact lexeme_rest_length_lt c cs

/-- The lexemes of a text concatenate to it. -/
theorem lexemes_flatten (cs : List Char) : (lexemes cs).flatMap Lexeme.text = cs := by
  fun_induction lexemes cs with
  | case1 => rfl
  | case2 c cs ih => rw [List.flatMap_cons, ih, lexeme_append]

end DataAccess.Sql
