import DataAccess.Delivery.Write
import DataAccess.Statement.Placeholders

/-!
The code that prepares the statement of a query and binds its arguments. The text of a query with
collections is put together when the code runs, since each of them takes as many placeholders as it
has elements.
-/

set_option autoImplicit false

namespace DataAccess.Statement

open Code DataAccess.Convert Delivery Sql

/-- The field that holds a prepared statement. -/
def preparedField (base sql : String) : ClassMembers.FieldSpec where
  base := base
  key := "prepared_stmt:" ++ sql
  prepare :=
    return ("SharedSqlStatement", "SharedSqlStatement::new(db.clone(), " ++ Text.literal sql ++ ")")

/-- A part of a text that is put together when the code runs. -/
inductive Piece where
  | text (text : String)
  /-- The placeholders of a collection, as many as the expression says. -/
  | placeholders (size : String)
deriving DecidableEq, Repr

/-- Puts a text before pieces. -/
def Piece.consText (t : String) : List Piece → List Piece
  | text rest :: more => text (t ++ rest) :: more
  | pieces => if t.isEmpty then pieces else text t :: pieces

/-- The pieces of a query, given the bindings of its placeholders. -/
def pieces : List Section → List Binding → List Piece
  | [], _ => []
  | .bind _ _ :: sections, b :: bindings =>
    match b.collection? with
    | some (name, argument) => .placeholders (argument.sizeExpr name) :: pieces sections bindings
    | none => Piece.consText "?" (pieces sections bindings)
  | .bind _ _ :: sections, [] => Piece.consText "?" (pieces sections [])
  | s :: sections, bindings => Piece.consText s.source (pieces sections bindings)

/-- The expressions for a text and for the number of its placeholders. -/
structure SqlCode where
  text : String
  count : String

namespace BoundQuery

/-- Writes a part of the text. Returns the variable for its number of placeholders, if it has one. -/
def writePiece (builder : String) : Piece → Emit (Option String)
  | .text t => do
    Emit.statement (builder ++ ".push_str(" ++ Text.literal t ++ ")")
    return none
  | .placeholders expr => do
    let size ← Emit.fresh "input_size"
    Emit.statement ("let " ++ size ++ " = " ++ expr)
    Emit.statement ("string_util::append_placeholders(&mut " ++ builder ++ ", " ++ size ++ ")")
    return some size

/-- Writes the text of the query into a variable. -/
def writeSql (b : BoundQuery) : Emit SqlCode := do
  let sql ← Emit.fresh "sql"
  let placeholders := b.query.binds.length
  if !b.hasCollections then
    Emit.statement ("let " ++ sql ++ " = " ++ Text.literal b.query.normalized)
    return ⟨sql, toString placeholders⟩
  let builder ← Emit.fresh "string_builder"
  Emit.statement ("let mut " ++ builder ++ " = String::new()")
  let sizes ← (pieces b.query.sections b.bindings).filterMapM (writePiece builder)
  let count ← Emit.fresh "arg_count"
  let fixed := placeholders - sizes.length
  let terms := if fixed = 0 then sizes else toString fixed :: sizes
  Emit.statement ("let " ++ sql ++ " = " ++ builder)
  Emit.statement ("let " ++ count ++ " = " ++ " + ".intercalate terms)
  return ⟨"&" ++ sql, count⟩

/-- Writes the binding of all arguments. -/
def writeBinds (b : BoundQuery) (statement : String) : Emit Unit := do
  if b.hasCollections then
    let counter ← Emit.fresh "arg_index"
    Emit.statement ("let mut " ++ counter ++ ": usize = 1")
    b.arguments.forM fun (name, argument) => argument.writeRunning statement counter name
  else
    (b.arguments.zipIdx 1).forM fun ((name, argument), index) =>
      argument.writeAt statement index name

/-- How the variable of a statement is declared: it changes when arguments are bound. -/
def declaration (b : BoundQuery) (statement : String) : String :=
  (if b.arguments.isEmpty then "let " else "let mut ") ++ statement ++ " = "

/-- Writes the preparation of a read. Returns the variable of the statement. -/
def prepareRead (b : BoundQuery) : Emit String := do
  let statement ← Emit.fresh "statement"
  let sql ← b.writeSql
  Emit.statement (b.declaration statement ++ "SqlQuery::acquire(" ++ sql.text ++ ", " ++
    sql.count ++ ")")
  b.writeBinds statement
  return statement

/-- Writes the preparation of a write. A statement with a fixed text is shared between runs. -/
def prepareWrite (b : BoundQuery) (method : String) : Emit StatementSource := do
  let statement ← Emit.fresh "stmt"
  if b.hasCollections then
    let sql ← b.writeSql
    Emit.statement (b.declaration statement ++ (← Emit.db) ++ ".compile_statement(" ++ sql.text ++
      ")")
  else
    let base := "prepared_stmt_of_" ++ Text.snakeCase method
    let field ← Emit.sharedField (preparedField base b.query.normalized)
    Emit.statement (b.declaration statement ++ (← Emit.receiver) ++ "." ++ field ++ ".acquire()")
  b.writeBinds statement
  return .statement statement

end BoundQuery

end DataAccess.Statement
