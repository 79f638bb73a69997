import DataAccess.Compile.Setting
import DataAccess.Reference.Prepared
import DataAccess.Reference.Retry

/-!
The reference database: the declared tables and views, against which queries are verified.
-/

set_option autoImplicit false

namespace DataAccess.Reference

open Schema

/-- A failure with the text in which it occurred. -/
structure TextFailure where
  failure : Failure
  sql : String
deriving DecidableEq, Repr

def TextFailure.message (f : TextFailure) : String := f.failure.message f.sql

/-- Why there is no database with the declared schema. -/
inductive SchemaError where
  | table (entity : String) (failure : TextFailure)
  | shape (entity : String) (problem : Problem)
  | view (name : String) (failure : TextFailure)
deriving DecidableEq, Repr

def SchemaError.message : SchemaError → String
  | table entity failure =>
    "cannot create table for entity " ++ Text.quoteName entity ++ ": " ++ failure.message
  | shape entity problem =>
    "cannot resolve entity " ++ Text.quoteName entity ++ ": " ++ problem.message
  | view name failure =>
    "cannot create view " ++ Text.quoteName name ++ ": " ++ failure.message

/-- Creates views where `execute` runs a statement. Views may build on one another, whatever their
order; a failure comes with the name of its view. -/
def createAll {σ ε : Type} (execute : String → σ → σ × Option ε) (views : List View) (s : σ) :
    Except (String × ε) σ :=
  match Retry.untilSettled (fun v : View => execute v.createView) views s with
  | (s, none) => .ok s
  | (_, some (v, e)) => .error (v.viewName, e)

structure Database where
  catalog : Catalog := {}

namespace Database

/-- A text without its first bytes. -/
def afterBytes (size : Nat) (sql : String) : String :=
  String.ofList (Reader.between size sql.utf8ByteSize 0 sql.toList)

/-- Runs the statements of a text in order, at most `fuel` of them. -/
def executeWithin : Nat → String → Database → Database × Option TextFailure
  | 0, _, db => (db, none)
  | fuel + 1, sql, db =>
    match Prepared.ofText db.catalog sql with
    | .error f => (db, some ⟨f, sql⟩)
    | .ok (p, size) =>
      if !p.starts then (db, some ⟨⟨.mismatchedType, none⟩, sql⟩)
      else
        let db := { db with catalog := p.after }
        if size = 0 || sql.utf8ByteSize ≤ size then (db, none)
        else executeWithin fuel (afterBytes size sql) db

/-- Runs the statements of a text up to the first that fails. -/
def execute (sql : String) (db : Database) : Database × Option TextFailure :=
  executeWithin (sql.utf8ByteSize + 1) sql db

/-- The text that creates the table of an entity. -/
def tableText (decls : Declarations) (e : Entity) : Except Problem String :=
  match e.ddl with
  | some ddl => .ok ddl
  | none => (decls.resolveShape e.record.type).map fun shape => e.createTable shape.columns

def createTables (decls : Declarations) (db : Database) : Except SchemaError Database :=
  decls.entities.foldlM (fun db e =>
    match tableText decls e with
    | .error problem => .error (.shape e.name problem)
    | .ok sql =>
      match db.execute sql with
      | (_, some failure) => .error (.table e.name failure)
      | (db, none) => .ok db) db

def createViews (views : List View) (db : Database) : Except SchemaError Database :=
  (createAll execute views db).mapError fun (name, failure) => .view name failure

/-- The database with the declared schema. -/
def create (decls : Declarations) : Except SchemaError Database := do
  createViews decls.views (← createTables decls {})

/-- What the database reports about the first statement of a text. -/
def analyze (db : Database) (sql : String) : Sql.ResultInfo :=
  match Prepared.ofText db.catalog sql with
  | .error f => { error := some (f.message sql) }
  | .ok (p, _) =>
    if p.starts then
      { columns := p.columns.map fun c =>
          { name := c.name, affinity := c.declared.bind Affinity.ofDeclaration? } }
    else { error := some Issue.mismatchedType.message }

end Database

/-- Opens a database with the declared schema, to verify queries against it. -/
def openSchema (decls : Declarations) : Except String Compile.Verifier :=
  match Database.create decls with
  | .ok db => .ok db.analyze
  | .error e => .error e.message

end DataAccess.Reference
