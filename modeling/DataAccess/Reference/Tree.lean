import DataAccess.Reference.Issue

/-!
Statements as the reference database reads them. Sources are shared by reading and expansion: what a
source provides is empty until its name is looked up.
-/

set_option autoImplicit false

namespace DataAccess.Reference

/-- A column that a table or a query provides. -/
structure Column where
  name : String
  /-- The declared type, when the column comes from a declared one. -/
  declared : Option String := none
  /-- Left out of `*`. -/
  hidden : Bool := false
  /-- Computed from other columns, so never written. -/
  generated : Bool := false
  /-- The table inside a parenthesized join that the column comes from. -/
  table : Option String := none
deriving DecidableEq, Repr

inductive Literal where
  | null
  | integer (value : Nat)
  /-- Another number, with its value when that is whole. -/
  | number (whole : Option Nat)
  | text (value : String)
  | blob
  /-- The current date or time. -/
  | moment
deriving DecidableEq, Repr

/-- How the rows of two queries are combined. -/
inductive Combination where
  | union | unionAll | intersect | except
deriving DecidableEq, Repr

def Combination.name : Combination → String
  | union => "UNION"
  | unionAll => "UNION ALL"
  | intersect => "INTERSECT"
  | except => "EXCEPT"

/-- How a source is joined to the ones before it. -/
structure Join where
  natural : Bool := false
  keepsLeft : Bool := false
  keepsRight : Bool := false
deriving DecidableEq, Repr

/-- A term of a `FROM` clause over expressions `E` and queries `Q`. -/
structure SourceOf (E Q : Type) where
  database : Option String := none
  name : Option String := none
  /-- The arguments of a table that is called like a function. -/
  arguments : Option (List E) := none
  query : Option Q := none
  asName : Option String := none
  join : Join := {}
  on : Option E := none
  shared : Option (List String) := none
  index : Option String := none
  /-- A join in parentheses. -/
  isGroup : Bool := false
  /-- A common table expression in its own body. -/
  isRecursive : Bool := false
  /-- The source stands in the definition of a view. -/
  inView : Bool := false
  columns : List Column := []
  /-- The database that holds the table, when it is one. -/
  home : Option String := none
  hasRowId : Bool := false
  /-- The column that names the row id. -/
  key : Option Nat := none
deriving Repr

/-- A column of a result before `*` is expanded. -/
inductive ResultItem (E : Type) where
  /-- An expression, its alias and the text that it is written in. -/
  | expression (value : E) (asName : Option String) (span : String)
  | star (offset : Option Nat)
  | tableStar (table : String) (offset : Option Nat)
deriving Repr

/-- A query without its set operations. -/
structure TermOf (E Q : Type) where
  isValues : Bool := false
  distinct : Bool := false
  items : List (ResultItem E) := []
  sources : List (SourceOf E Q) := []
  condition : Option E := none
  groupBy : List E := []
  having : Option E := none
  windows : List (String × List E) := []
  orderBy : List E := []
  limit : Option E := none
  skip : Option E := none
deriving Repr

/-- A common table expression over queries `Q`. -/
structure CommonTableOf (Q : Type) where
  name : String
  columns : Option (List String) := none
  query : Q
deriving Repr

/-- The window that a call is computed over. -/
structure WindowOf (E : Type) where
  base : Option String := none
  parts : List E := []
deriving Repr

mutual

inductive Expr where
  | literal (value : Literal) (offset : Option Nat)
  | variable (offset : Option Nat)
  | name (value : String) (doubleQuoted : Bool) (offset : Option Nat)
  /-- A column of a table, possibly of a database; outermost name first. -/
  | member (path : List String) (offset : Option Nat)
  | call (function : String) (distinct star : Bool) (args order : List Expr)
      (filter : Option Expr) (window : Option (WindowOf Expr)) (offset : Option Nat)
  | operation (operator : String) (operands : List Expr)
  | collate (operand : Expr) (collation : String)
  | between (operand low high : Expr)
  | branches (base : Option Expr) (parts : List Expr)
  | row (items : List Expr)
  | inList (operand : Expr) (items : List Expr)
  | inQuery (operand : Expr) (query : Query)
  | scalar (query : Query)
  | exist (query : Query)
  | raise (offset : Option Nat)

/-- Terms combined from the left, under common table expressions. -/
inductive Query where
  | mk (tables : List (CommonTableOf Query)) (first : TermOf Expr Query)
      (more : List (Combination × TermOf Expr Query))

end

abbrev Source := SourceOf Expr Query

abbrev Term := TermOf Expr Query

abbrev CommonTable := CommonTableOf Query

namespace Query

def commonTables : Query → List CommonTable
  | .mk tables _ _ => tables

def first : Query → Term
  | .mk _ first _ => first

def more : Query → List (Combination × Term)
  | .mk _ _ more => more

def terms (q : Query) : List Term := q.first :: q.more.map Prod.snd

def lastTerm (q : Query) : Term := (q.more.getLast?.map Prod.snd).getD q.first

/-- A query of one term. -/
def ofTerm (t : Term) : Query := .mk [] t []

end Query

/-- Assignments of an `UPDATE`: the columns of each, and its value. -/
abbrev Assignments := List (List String × Expr)

/-- What an `INSERT` does about a row that is already there. -/
structure Upsert where
  /-- The columns of the key that is looked at, when one is given. -/
  target : List Expr := []
  targetCondition : Option Expr := none
  assignments : Assignments := []
  condition : Option Expr := none

/-- A table that is written, under common table expressions. -/
structure Target where
  commonTables : List CommonTable := []
  table : Source
  /-- The result columns of a `RETURNING` clause. -/
  returning : List (ResultItem Expr) := []

/-- The rows of an `INSERT`; without a query they hold defaults. -/
structure Insertion extends Target where
  columns : Option (List String) := none
  rows : Option Query := none
  upserts : List Upsert := []

structure Update extends Target where
  assignments : Assignments
  sources : List Source := []
  condition : Option Expr := none

structure Deletion extends Target where
  condition : Option Expr := none

end DataAccess.Reference
