import DataAccess.Reference.Tree
import DataAccess.Text.Words

/-!
The tables, views and indexes of the reference database. Names are equal up to ASCII case, and tables,
views and indexes share one space of names.
-/

set_option autoImplicit false

namespace DataAccess.Reference

/-- The orders of text. -/
def collations : List String := ["BINARY", "NOCASE", "RTRIM"]

structure Table where
  name : String
  columns : List Column
  hasRowId : Bool := true
  /-- The column that names the row id. -/
  key : Option Nat := none
  /-- The sets of columns that tell rows apart. -/
  uniqueKeys : List (List String) := []
  isWritable : Bool := true
deriving DecidableEq, Repr

structure ViewDefinition where
  name : String
  columns : Option (List String) := none
  query : Query

/-- What a name in a `FROM` clause can denote. -/
inductive Relation where
  | table (t : Table)
  | view (v : ViewDefinition)

structure Catalog where
  tables : List Table := []
  views : List ViewDefinition := []
  /-- The names of the indexes, with those of their tables. -/
  indexes : List (String × String) := []

namespace Catalog

/-- The table that describes a schema. -/
def schemaTable (name : String) : Table where
  name := name
  columns := [("type", "text"), ("name", "text"), ("tbl_name", "text"), ("rootpage", "int"),
    ("sql", "text")].map fun (name, type) => { name, declared := some type }
  isWritable := false

def schemaNames : List String :=
  ["sqlite_master", "sqlite_schema", "sqlite_temp_master", "sqlite_temp_schema"]

/-- Tables that take their rows from a document. -/
def documentTables : List Table :=
  ["json_each", "json_tree"].map fun name =>
    { name := name
      columns := ["key", "value", "type", "atom", "id", "parent", "fullkey", "path"].map
          (fun name => { name }) ++ ["json", "root"].map fun name => { name, hidden := true }
      isWritable := false }

def table? (c : Catalog) (name : String) : Option Table :=
  c.tables.find? (Text.sameWord ·.name name)

def view? (c : Catalog) (name : String) : Option ViewDefinition :=
  c.views.find? (Text.sameWord ·.name name)

def hasIndex (c : Catalog) (name : String) : Bool :=
  c.indexes.any (Text.sameWord ·.1 name)

def builtIn? (name : String) : Option Table :=
  match schemaNames.find? (Text.sameWord · name) with
  | some n => some (schemaTable n)
  | none => documentTables.find? (Text.sameWord ·.name name)

/-- Whether a table takes its rows from arguments. -/
def isFunction (t : Table) : Bool := documentTables.any (·.name = t.name)

def find? (c : Catalog) (name : String) : Option Relation :=
  match c.table? name with
  | some t => some (.table t)
  | none =>
    match c.view? name with
    | some v => some (.view v)
    | none => (builtIn? name).map .table

/-- What a qualified or plain name denotes; only the main database holds anything. -/
def locate? (c : Catalog) (database : Option String) (name : String) : Option Relation :=
  if database.all (Text.sameWord · "main") then c.find? name else none

def addTable (c : Catalog) (t : Table) : Catalog := { c with tables := c.tables ++ [t] }

def addView (c : Catalog) (v : ViewDefinition) : Catalog := { c with views := c.views ++ [v] }

def addIndex (c : Catalog) (name table : String) : Catalog :=
  { c with indexes := c.indexes ++ [(name, table)] }

/-- The catalog without the table, view or index of a name. -/
def erase (c : Catalog) (name : String) : Catalog where
  tables := c.tables.filter (!Text.sameWord ·.name name)
  views := c.views.filter (!Text.sameWord ·.name name)
  indexes := c.indexes.filter fun (index, table) =>
    !Text.sameWord index name && !Text.sameWord table name

end Catalog

end DataAccess.Reference
