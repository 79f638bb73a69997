import DataAccess.Sql.Grammar.Statement
import DataAccess.Sql.Token

/-!
Kind and tables of a text by its keywords alone, for the texts that the statement grammar refuses.
-/

set_option autoImplicit false

namespace DataAccess.Sql

/-- The kind of statement that a word starts. -/
def StatementKind.ofKeyword (word : String) : StatementKind :=
  match Text.asciiUpper word with
  | "SELECT" | "WITH" | "VALUES" => .select
  | "INSERT" | "REPLACE" => .insert
  | "UPDATE" => .update
  | "DELETE" => .delete
  | _ => .unknown

namespace KeywordScan

/-- Words that cannot be the table after a keyword. -/
def reserved : List String :=
  ["SELECT", "WHERE", "ON", "AS", "SET", "VALUES", "LEFT", "INNER", "OUTER", "CROSS", "NATURAL",
    "JOIN", "GROUP", "ORDER", "LIMIT", "WITH"]

/-- What the scan looks at: everything but blanks, comments and opening parentheses. -/
def significant (tokens : List Token) : List Token :=
  tokens.filter fun t => !t.isTrivia && t.kind ≠ .lParen

/-- The adjacent pairs of a list. -/
def pairs {α : Type} (xs : List α) : List (α × α) := xs.zip xs.tail

def startsWithCommonTable (tokens : List Token) : Bool :=
  tokens.head?.any (·.isKeyword "WITH")

/-- The kind of the first word; after a leading `WITH`, the first write of any token. -/
def kind (tokens : List Token) : StatementKind :=
  match tokens.find? (·.kind = .word) with
  | none => .unknown
  | some first =>
    let k := StatementKind.ofKeyword first.text
    if k = .select && startsWithCommonTable tokens then
      ((tokens.map (StatementKind.ofKeyword ·.text)).find? StatementKind.isWrite).getD .select
    else k

/-- The names that may be common table expressions, in lower case. -/
def commonTables (tokens : List Token) : List String :=
  if startsWithCommonTable tokens then
    (pairs tokens).filterMap fun (t, next) =>
      if t.isKeyword "WITH" || t.isKeyword "RECURSIVE" || t.text = "," then
        next.ident?.map Text.asciiLower
      else none
  else []

/-- The name that a pair of tokens introduces as a table. -/
def introduced? (pair : Token × Token) : Option String :=
  let (t, next) := pair
  if ["FROM", "JOIN", "UPDATE", "INTO"].any t.isKeyword then
    match next.ident? with
    | some name =>
      if next.kind = .word && reserved.any (Text.sameWord · name) then none else some name
    | none => none
  else none

def summary (tokens : List Token) : Summary :=
  let tokens := significant tokens
  let hidden := commonTables tokens
  { kind := kind tokens
    tables := NameSet.ofList (((pairs tokens).filterMap introduced?).filter
      fun name => !hidden.contains (Text.asciiLower name)) }

end KeywordScan

end DataAccess.Sql
