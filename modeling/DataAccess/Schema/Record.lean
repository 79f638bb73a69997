import DataAccess.Schema.Field

/-!
Records, and the entities and views whose rows are records.
-/

set_option autoImplicit false

namespace DataAccess.Schema

/-- A member whose fields are read from the same row. -/
structure Embedded where
  member : String
  type : TypeExpr
  /-- What the columns of the embedded record start with. -/
  lead : String := ""
deriving DecidableEq, Repr

/-- A member filled by a second query, keyed on a column of the parent. -/
structure Relation where
  member : String
  type : TypeExpr
  /-- The entity that holds the related rows. -/
  entity : String
  parentColumn : String
  entityColumn : String
  /-- The column to read, when the element is not the related entity itself. -/
  projection : Option String := none
deriving DecidableEq, Repr

namespace Relation

/-- One to many. -/
def isCollection (r : Relation) : Bool := r.type.isCollection

/-- The type of one related row. -/
def element (r : Relation) : TypeExpr :=
  if r.isCollection || r.type.isOption then r.type.args.headD r.type else r.type

end Relation

structure Record where
  name : String
  fields : List Field := []
  embedded : List Embedded := []
  relations : List Relation := []
deriving DecidableEq, Repr

def Record.type (r : Record) : TypeExpr := .simple r.name

structure Entity where
  record : Record
  table : Option String := none
  primaryKey : List String := []
  /-- The exact table definition, when one is declared. -/
  ddl : Option String := none
deriving DecidableEq, Repr

namespace Entity

def name (e : Entity) : String := e.record.name

def tableName (e : Entity) : String := e.table.getD e.name

/-- The definition of the entity's table over the given columns. -/
def createTable (e : Entity) (columns : List Field) : String :=
  let key :=
    if e.primaryKey.isEmpty then []
    else ["PRIMARY KEY(" ++ ", ".intercalate (e.primaryKey.map Text.quoteName) ++ ")"]
  "CREATE TABLE IF NOT EXISTS " ++ Text.quoteName e.tableName ++ " (" ++
    ", ".intercalate (columns.map Field.definition ++ key) ++ ")"

end Entity

structure View where
  record : Record
  view : Option String := none
  query : String
deriving DecidableEq, Repr

namespace View

def name (v : View) : String := v.record.name

def viewName (v : View) : String := v.view.getD v.name

def createView (v : View) : String :=
  "CREATE VIEW " ++ Text.quoteName v.viewName ++ " AS " ++ v.query

end View

end DataAccess.Schema
