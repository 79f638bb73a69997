import DataAccess.Reference.Catalog
import DataAccess.Reference.Token

/-!
Readers over tokens. A statement fails at the first token that cannot continue it. An issue that is
found between two tokens is deferred until the next one is taken, because a token that cannot be
taken is the more urgent matter.
-/

set_option autoImplicit false

namespace DataAccess.Reference

structure ReaderState where
  rest : List Token
  text : List Char
  catalog : Catalog
  /-- Whether what is read keeps its place in the text. -/
  located : Bool := true
  deferred : Option Failure := none
  /-- The largest index that a variable has. -/
  variableCount : Nat := 0
  variableNames : List String := []

abbrev Reader (α : Type) := StateT ReaderState (Except Failure) α

namespace Reader

/-- The next token; there is always an end of the text. -/
def ReaderState.head (s : ReaderState) : Token :=
  s.rest.headD ⟨.finish, "", "", 0⟩

/-- The next token, which must be legal. -/
def peek : Reader Token := do
  let t := ReaderState.head (← get)
  if t.kind = .illegal then throw t.refusal
  return t

def peekAt? (n : Nat) : Reader (Option Token) := return (← get).rest[n]?

/-- The number of tokens left, which bounds every loop. -/
def remaining : Reader Nat := return (← get).rest.length

/-- The statement cannot go on with the next token. -/
def refuse {α : Type} : Reader α := do throw (← peek).refusal

def next : Reader Token := do
  let t ← peek
  match (← get).deferred with
  | some f => throw f
  | none =>
    modify fun s => { s with rest := s.rest.drop 1 }
    return t

/-- Reports an issue unless the next token is refused. -/
def defer (issue : Issue) (offset : Option Nat) : Reader Unit := do
  let _ ← peek
  modify fun s => { s with deferred := some ⟨issue, offset⟩ }

/-- An issue that a token just taken raises. -/
def fail {α : Type} (issue : Issue) (offset : Option Nat) : Reader α := throw ⟨issue, offset⟩

/-- The place of a token, as far as it is kept. -/
def place (t : Token) : Reader (Option Nat) :=
  return if (← get).located then some t.offset else none

def peekKeyword (keyword : String) : Reader Bool := return (← peek).isKeyword keyword

def peekAnyKeyword (keywords : List String) : Reader Bool := do
  let t ← peek
  return keywords.any t.isKeyword

def peekSymbol (symbol : String) : Reader Bool := return (← peek).isSymbol symbol

def keyword (k : String) : Reader Bool := do
  let hit ← peekKeyword k
  if hit then let _ ← next
  return hit

def symbol (s : String) : Reader Bool := do
  let hit ← peekSymbol s
  if hit then let _ ← next
  return hit

def expectKeyword (k : String) : Reader Unit := do
  unless ← keyword k do refuse

def expectKeywords (ks : List String) : Reader Unit := ks.forM expectKeyword

def expectSymbol (s : String) : Reader Unit := do
  unless ← symbol s do refuse

/-- Takes the first keyword and then requires the others. -/
def keywords (first : String) (others : List String) : Reader Bool := do
  let hit ← keyword first
  if hit then expectKeywords others
  return hit

def peekIf (accepts : Token → Bool) : Reader Bool := return accepts (← peek)

def takeIf (accepts : Token → Bool) : Reader Token := do
  if accepts (← peek) then next else refuse

/-- The name of a table or a column. -/
def name : Reader Token := takeIf Token.isName

def nameValue : Reader String := return (← name).value

/-- One or more items with commas between them, at most `n` commas. -/
def separatedWithin {α : Type} (item : Reader α) : Nat → Reader (List α)
  | 0 => return [← item]
  | n + 1 => do
    let first ← item
    if ← symbol "," then
      return first :: (← separatedWithin item n)
    return [first]

def commaSeparated {α : Type} (item : Reader α) : Reader (List α) := do
  separatedWithin item (← remaining)

def parenthesized {α : Type} (inner : Reader α) : Reader α := do
  expectSymbol "("
  let a ← inner
  expectSymbol ")"
  return a

/-- The answers of an item until it declines, at most `n` of them. -/
def manyWithin {α : Type} (item : Reader (Option α)) : Nat → Reader (List α)
  | 0 => return []
  | n + 1 => do
    match ← item with
    | some a => return a :: (← manyWithin item n)
    | none => return []

def many {α : Type} (item : Reader (Option α)) : Reader (List α) := do
  manyWithin item (← remaining)

def nameList : Reader (List String) := parenthesized (commaSeparated nameValue)

/-- The characters of a text from one byte up to another. -/
def between (first last : Nat) (offset : Nat) : List Char → List Char
  | [] => []
  | c :: rest =>
    let more := between first last (offset + c.utf8Size) rest
    if first ≤ offset && offset < last then c :: more else more

def trimmed (s : List Char) : List Char :=
  ((s.dropWhile Token.isMoreBlank).reverse.dropWhile Token.isMoreBlank).reverse

/-- An item with the text that it is written in, up to the token after it. -/
def withSpan {α : Type} (item : Reader α) : Reader (α × String) := do
  let first := (← peek).offset
  let a ← item
  let last := (← peek).offset
  return (a, String.ofList (trimmed (between first last 0 (← get).text)))

/-- The largest index that a variable can have. -/
def maxVariable : Nat := 32766

def variableIndex (t : Token) (index : Nat) : Reader Unit := do
  modify fun s => { s with variableCount := max s.variableCount index }
  if maxVariable < index then fail .tooManyVariables (some t.offset)

/-- Numbers a variable: `?N` is `N`, a name keeps its index, anything else takes a new one. -/
def useVariable (t : Token) : Reader Unit := do
  match t.text.toList with
  | ['?'] => variableIndex t ((← get).variableCount + 1)
  | '?' :: digits =>
    let index := Sql.digitsValue digits
    if index = 0 || maxVariable < index then fail .variableOutOfRange (some t.offset)
    variableIndex t index
  | '#' :: d :: _ =>
    if d.isDigit then throw t.refusal
    named t
  | _ => named t
where
  named (t : Token) : Reader Unit := do
    unless (← get).variableNames.contains t.text do
      modify fun s => { s with variableNames := t.text :: s.variableNames }
      variableIndex t ((← get).variableCount + 1)

end Reader

end DataAccess.Reference
