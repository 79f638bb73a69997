import DataAccess.Diagnostics.Warning
import DataAccess.TypeExpr

/-!
Data access objects and the classes of type converters, as they are declared.
-/

set_option autoImplicit false

namespace DataAccess.Schema

inductive MethodKind where
  | query | transaction | insert | update | delete
deriving DecidableEq, Repr

namespace MethodKind

def all : List MethodKind := [query, transaction, insert, update, delete]

def name : MethodKind → String
  | query => "query"
  | transaction => "transaction"
  | insert => "insert"
  | update => "update"
  | delete => "delete"

end MethodKind

/-- What a write does with a row that violates a constraint. -/
inductive OnConflict where
  | abort | replace | ignore | fail | rollback
deriving DecidableEq, Repr

namespace OnConflict

def all : List OnConflict := [abort, replace, ignore, fail, rollback]

def name : OnConflict → String
  | abort => "abort"
  | replace => "replace"
  | ignore => "ignore"
  | fail => "fail"
  | rollback => "rollback"

def sql (c : OnConflict) : String := Text.asciiUpper c.name

end OnConflict

structure Param where
  name : String
  type : TypeExpr
  /-- The name that placeholders use, when it is another one. -/
  sqlName : Option String := none
deriving DecidableEq, Repr

def Param.placeholder (p : Param) : String := p.sqlName.getD p.name

/-- The warnings that a list of keys names; other keys are ignored. -/
def suppressedBy (keys : List String) : List Warning := keys.filterMap Warning.ofKey?

structure Method where
  name : String
  kind : MethodKind := .query
  sql : Option String := none
  returns : TypeExpr := .unit
  params : List Param := []
  suspend : Bool := false
  skipVerification : Bool := false
  transaction : Bool := false
  delegate : Option String := none
  onConflict : OnConflict := .abort
  suppressWarnings : List String := []
deriving DecidableEq, Repr

namespace Method

/-- The method that holds the body of a transaction method. -/
def delegateName (m : Method) : String := m.delegate.getD (m.name ++ "_body")

end Method

structure Dao where
  name : String
  converters : List String := []
  suppressWarnings : List String := []
  methods : List Method := []
deriving DecidableEq, Repr

/-- The name of the generated class. -/
def Dao.implName (d : Dao) : String := d.name ++ "Impl"

/-- How a converter method is reached. -/
inductive ConverterKind where
  | static
  /-- On an instance that the generated class creates. -/
  | constructed
  /-- On an instance that the database provides. -/
  | provided
deriving DecidableEq, Repr

namespace ConverterKind

def all : List ConverterKind := [static, constructed, provided]

def name : ConverterKind → String
  | static => "static"
  | constructed => "instance"
  | provided => "provided"

end ConverterKind

structure ConverterMethod where
  name : String
  source : TypeExpr
  target : TypeExpr
deriving DecidableEq, Repr

structure ConverterClass where
  name : String
  kind : ConverterKind := .static
  methods : List ConverterMethod := []
deriving DecidableEq, Repr

/-- A converter method together with its class. -/
structure CustomConverter where
  className : String
  kind : ConverterKind
  methodName : String
  source : TypeExpr
  target : TypeExpr
deriving DecidableEq, Repr

namespace CustomConverter

def ofMethod (c : ConverterClass) (m : ConverterMethod) : CustomConverter :=
  ⟨c.name, c.kind, m.name, m.source, m.target⟩

def qualifiedName (c : CustomConverter) : String := c.className ++ "::" ++ c.methodName

end CustomConverter

end DataAccess.Schema
