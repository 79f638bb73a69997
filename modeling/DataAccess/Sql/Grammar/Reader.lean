import DataAccess.Sql.Grammar.Symbol
import DataAccess.Sql.Mention

/-!
Readers over symbols. A reader consumes symbols and collects the tables that the text names, query by
query, and the names that common table expressions define; a reader that is undone collects nothing.
-/

set_option autoImplicit false

namespace DataAccess.Sql.Grammar

/-- Why a text is refused. -/
inductive Refusal where
  | mismatch
  /-- The nesting is deeper than the grammar follows. -/
  | tooDeep
deriving DecidableEq, Repr

structure State where
  rest : List Symbol
  /-- What the query that is being read refers to. -/
  mentions : Mentions := .none
  /-- The names that its `WITH` list declares. -/
  commonTables : List String := []

abbrev Reader (α : Type) := StateT State (Except Refusal) α

namespace Reader

def mismatch {α : Type} : Reader α := throw .mismatch

def peek? : Reader (Option Symbol) := return (← get).rest.head?

def peekAt? (n : Nat) : Reader (Option Symbol) := return (← get).rest[n]?

/-- The number of symbols left, which bounds every loop. -/
def remaining : Reader Nat := return (← get).rest.length

def skip (n : Nat) : Reader Unit := modify fun s => { s with rest := s.rest.drop n }

def next : Reader Symbol := do
  match (← get).rest with
  | [] => mismatch
  | x :: rest =>
    modify fun s => { s with rest }
    return x

/-- Tries a reader; on a mismatch nothing has happened. -/
def attempt {α : Type} (r : Reader α) : Reader (Option α) := fun s =>
  match r s with
  | .ok (a, s') => .ok (some a, s')
  | .error .mismatch => .ok (none, s)
  | .error .tooDeep => .error .tooDeep

/-- Tries `r` and then `r'` from the same place, whatever stopped `r`. -/
def orElse {α : Type} (r r' : Reader α) : Reader α := fun s =>
  match r s with
  | .ok result => .ok result
  | .error _ => r' s

def Symbol.isKeyword (x : Symbol) (keyword : String) : Bool :=
  match x with
  | .word value true => Text.sameWord value keyword
  | _ => false

def peekKeyword (keyword : String) : Reader Bool :=
  return (← peek?).any (Symbol.isKeyword · keyword)

def peekAnyKeyword (keywords : List String) : Reader Bool :=
  return (← peek?).any fun x => keywords.any (Symbol.isKeyword x)

/-- Takes a sequence of keywords, or nothing. -/
def keywords (ks : List String) : Reader Bool := do
  let rest := (← get).rest
  let hit := ks.length ≤ rest.length && (ks.zip rest).all fun (k, x) => Symbol.isKeyword x k
  if hit then skip ks.length
  return hit

def keyword (k : String) : Reader Bool := keywords [k]

/-- Takes one of some keywords, or nothing. -/
def oneOf (ks : List String) : Reader Bool := do
  let hit ← peekAnyKeyword ks
  if hit then skip 1
  return hit

def expectKeyword (k : String) : Reader Unit := do
  unless ← keyword k do mismatch

def expectKeywords (ks : List String) : Reader Unit := do
  unless ← keywords ks do mismatch

def operator (op : String) : Reader Bool := do
  let hit := (← peek?) = some (.operator op)
  if hit then skip 1
  return hit

def peekOperator (op : String) : Reader Bool := return (← peek?) = some (.operator op)

def expectOperator (op : String) : Reader Unit := do
  unless ← operator op do mismatch

def relation (name : ObjectName) : Reader Unit :=
  modify fun s => { s with mentions := .table name s.mentions }

def commonTable (name : String) : Reader Unit :=
  modify fun s => { s with commonTables := name :: s.commonTables }

/-- What `r` reads is a query of its own. -/
def asQuery {α : Type} (r : Reader α) : Reader α := fun s => do
  let (a, inner) ← r { rest := s.rest }
  return (a, { s with
    rest := inner.rest
    mentions := .query inner.commonTables inner.mentions s.mentions })

/-- One or more items between separators, at most `n` separators. -/
def separated {α : Type} (separator : Reader Bool) (item : Reader α) : Nat → Reader Unit
  | 0 => do let _ ← item
  | n + 1 => do
    let _ ← item
    if ← separator then separated separator item n

def commaSeparated {α : Type} (item : Reader α) : Reader Unit := do
  separated (operator ",") item (← remaining)

def parenthesized {α : Type} (inner : Reader α) : Reader Unit := do
  expectOperator "("
  let _ ← inner
  expectOperator ")"

/-- Repeats an item until it declines, at most `n` times. -/
def many (item : Reader Bool) : Nat → Reader Unit
  | 0 => return ()
  | n + 1 => do if ← item then many item n

/-- Any name or quoted text. -/
def identifier : Reader String := do
  match ← next with
  | .word value _ => return value
  | .string => return ""
  | _ => mismatch

/-- The parts that follow the beginning of a dotted name. -/
def dotted (name : ObjectName) : Nat → Reader ObjectName
  | 0 => return name
  | n + 1 => do
    if ← operator "." then dotted ⟨name.qualifier ++ [name.last], ← identifier⟩ n else return name

def objectName : Reader ObjectName := do
  let first ← identifier
  dotted ⟨[], first⟩ (← remaining)

def identifierList : Reader Unit := parenthesized (commaSeparated identifier)

def number : Reader Unit := do
  match ← next with
  | .number => return ()
  | _ => mismatch

/-- What a table without `AS` cannot be renamed to. -/
def notTableAlias : List String :=
  ["WITH", "EXPLAIN", "ANALYZE", "SELECT", "WHERE", "GROUP", "SORT", "HAVING", "ORDER", "PIVOT",
    "UNPIVOT", "TOP", "LATERAL", "VIEW", "LIMIT", "OFFSET", "FETCH", "UNION", "EXCEPT",
    "INTERSECT", "ON", "JOIN", "INNER", "CROSS", "FULL", "LEFT", "RIGHT", "NATURAL", "USING",
    "CLUSTER", "DISTRIBUTE", "GLOBAL", "ANTI", "SEMI", "RETURNING", "ASOF", "MATCH_CONDITION",
    "OUTER", "SET", "QUALIFY", "WINDOW", "END", "FOR", "PARTITION", "PREWHERE", "SETTINGS",
    "FORMAT", "START", "CONNECT", "MATCH_RECOGNIZE"]

/-- What a result column without `AS` cannot be renamed to. -/
def notColumnAlias : List String :=
  ["WITH", "EXPLAIN", "ANALYZE", "SELECT", "WHERE", "GROUP", "SORT", "HAVING", "ORDER", "TOP",
    "LATERAL", "VIEW", "LIMIT", "OFFSET", "FETCH", "UNION", "EXCEPT", "INTERSECT", "CLUSTER",
    "DISTRIBUTE", "RETURNING", "FROM", "INTO", "END"]

/-- Takes an alias; after `AS` any name is one. -/
def aliasName (reserved : List String) : Reader Bool := do
  if ← keyword "AS" then
    let _ ← identifier
    return true
  match ← peek? with
  | some (.word _ false) | some .string => skip 1; return true
  | some x@(.word _ true) =>
    if reserved.any (Symbol.isKeyword x) then return false
    skip 1
    return true
  | _ => return false

end Reader

end DataAccess.Sql.Grammar
