/-!
Kinds of statements.
-/

set_option autoImplicit false

namespace DataAccess.Sql

inductive StatementKind where
  | select | insert | update | delete | unknown
deriving DecidableEq, Repr

namespace StatementKind

def all : List StatementKind := [select, insert, update, delete, unknown]

def name : StatementKind → String
  | select => "SELECT"
  | insert => "INSERT"
  | update => "UPDATE"
  | delete => "DELETE"
  | unknown => "UNKNOWN"

def ofName? (n : String) : Option StatementKind := all.find? (·.name = n)

def isWrite : StatementKind → Bool
  | insert | update | delete => true
  | select | unknown => false

end StatementKind

end DataAccess.Sql
