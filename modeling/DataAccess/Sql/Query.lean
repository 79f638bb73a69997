import DataAccess.Diagnostics.Problem
import DataAccess.Sql.KeywordScan

/-!
Queries: a text cut into sections at its line breaks and placeholders, with the kind of statement,
the tables it touches and everything that is wrong with it.
-/

set_option autoImplicit false

namespace DataAccess.Sql

inductive Section where
  | text (text : String)
  | newLine
  | bind (text : String) (name : Option String)
deriving DecidableEq, Repr

namespace Section

def source : Section → String
  | text t => t
  | newLine => "\n"
  | bind t _ => t

def isBind : Section → Bool
  | bind _ _ => true
  | _ => false

/-- Puts a token before the sections of the text after it. -/
def cons (t : Token) (sections : List Section) : List Section :=
  match t.kind with
  | .newLine => newLine :: sections
  | .bind name => bind t.text name :: sections
  | _ =>
    match sections with
    | text rest :: more => text (t.text ++ rest) :: more
    | _ => text t.text :: sections

def ofTokens (tokens : List Token) : List Section := tokens.foldr cons []

end Section

/-- How a placeholder selects its argument. -/
inductive BindTarget where
  | named (name : String)
  /-- A position, counted from 1. -/
  | index (n : Nat)
deriving DecidableEq, Repr

/-- The index after another one. Indices are words of 64 bits, so that 0 comes after the largest. -/
def nextIndex (n : Nat) : Nat := (n + 1) % (maxIndex + 1)

/-- The index before another one, which is the largest before 0. -/
def priorIndex (n : Nat) : Nat := (n + maxIndex) % (maxIndex + 1)

def BindTarget.display : BindTarget → String
  | named name => ":" ++ name
  | index n => "?" ++ toString n

structure Column where
  name : String
  affinity : Option Affinity := none
deriving DecidableEq, Repr

/-- What the reference database reports about a query. -/
structure ResultInfo where
  columns : List Column := []
  error : Option String := none
deriving DecidableEq, Repr

namespace ResultInfo

def columnNames (r : ResultInfo) : List String := r.columns.map Column.name

/-- The elements that are equal to an earlier one. -/
def repeated (seen : List String) : List String → List String
  | [] => []
  | n :: ns => if seen.contains n then n :: repeated seen ns else repeated (n :: seen) ns

def duplicateColumns (r : ResultInfo) : NameSet := NameSet.ofList (repeated [] r.columnNames)

def hasDuplicateColumns (r : ResultInfo) : Bool := !r.duplicateColumns.isEmpty

end ResultInfo

inductive QueryError where
  | lexical (error : LexError)
  /-- The statement is of no kind that can be compiled; `leading` is its first word. -/
  | unsupported (leading : String)
deriving DecidableEq, Repr

def QueryError.problem : QueryError → Problem
  | lexical error => .text error.message
  | unsupported leading => .unsupportedStatement leading

structure Query where
  original : String
  kind : StatementKind := .unknown
  sections : List Section := []
  tables : NameSet := .empty
  errors : List QueryError := []
  resultInfo : Option ResultInfo := none
  /-- The declared text, when this query rewrites it. -/
  rewrittenFrom : Option String := none
  isMissing : Bool := false
deriving DecidableEq

namespace Query

/-- Stands in for the query of a method that declares none. -/
def missing : Query := { original := "missing query", isMissing := true }

def hasErrors (q : Query) : Bool := !q.errors.isEmpty

/-- The placeholders in order: their texts and names. -/
def binds (q : Query) : List (String × Option String) :=
  q.sections.filterMap fun
    | .bind text name => some (text, name)
    | _ => none

/-- The targets of placeholders, given the largest index so far and the names already used. -/
def targetsFrom (largest : Nat) (used : List String) :
    List (String × Option String) → List BindTarget
  | [] => []
  | (_, some name) :: rest =>
    .named name ::
      if used.contains name then targetsFrom largest used rest
      else targetsFrom (nextIndex largest) (name :: used) rest
  | (text, none) :: rest =>
    let index := (spelledIndex? text.toList.tail).getD (nextIndex largest)
    .index index :: targetsFrom (max largest index) used rest

/-- The target of every placeholder: `?N` is `N`, a bare `?` is the index after the largest so far,
and a name takes a new index on first use. -/
def bindTargets (q : Query) : List BindTarget := targetsFrom 0 [] q.binds

/-- The text of sections with a bare `?` for each placeholder. -/
def normalizedText (sections : List Section) : String :=
  String.join (sections.map fun
    | .bind _ _ => "?"
    | s => s.source)

def normalized (q : Query) : String := normalizedText q.sections

/-- The first word of a text in upper case. -/
def leadingWord (tokens : List Token) : String :=
  match tokens.find? (·.kind = .word) with
  | some t => Text.asciiUpper t.text
  | none => "EMPTY"

/-- Reads a query with a given statement grammar. The grammar decides about texts without lexical
errors that it accepts, and the keywords about all others. -/
def parseWith (grammar : List Char → Option Summary) (text : String) : Query :=
  let lexed := tokenize text
  let sections := Section.ofTokens lexed.tokens
  let accepted := if lexed.errors.isEmpty then grammar (normalizedText sections).toList else none
  let summary := accepted.getD (KeywordScan.summary lexed.tokens)
  let unsupported :=
    if summary.kind = .unknown then [.unsupported (leadingWord lexed.tokens)] else []
  { original := text
    kind := summary.kind
    sections := sections
    tables := summary.tables
    errors := lexed.errors.map .lexical ++ unsupported }

def parse (text : String) : Query := parseWith Grammar.summary? text

end Query

end DataAccess.Sql
