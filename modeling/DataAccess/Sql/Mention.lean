import DataAccess.Text.NameSet
import DataAccess.Text.Words

/-!
What a statement refers to: the tables that it names and the queries in it, each with the names that
its `WITH` list declares.
-/

set_option autoImplicit false

namespace DataAccess.Sql

/-- A dotted name: the parts before the last dot, and the last part. -/
structure ObjectName where
  qualifier : List String := []
  last : String
deriving DecidableEq, Repr

/-- What a part of a statement refers to, the latest first. -/
inductive Mentions where
  | none
  | table (name : ObjectName) (earlier : Mentions)
  /-- A query, with the names that its `WITH` list declares. -/
  | query (commonTables : List String) (inner earlier : Mentions)
deriving DecidableEq, Repr

namespace Mentions

/-- The names of all tables. -/
def tables : Mentions → List ObjectName
  | none => []
  | table name earlier => name :: earlier.tables
  | query _ inner earlier => inner.tables ++ earlier.tables

/-- The names that the `WITH` lists declare, of all queries. -/
def declared : Mentions → List String
  | none => []
  | table _ earlier => earlier.declared
  | query commonTables inner earlier => commonTables ++ (inner.declared ++ earlier.declared)

/-- The last parts of the names, but those that are declared, in any ASCII case. -/
def reported (m : Mentions) : NameSet :=
  let hidden := m.declared.map Text.asciiLower
  (NameSet.ofList (m.tables.map ObjectName.last)).filter
    fun name => !hidden.contains (Text.asciiLower name)

theorem mem_reported {m : Mentions} {n : String} :
    n ∈ m.reported ↔
      n ∈ m.tables.map ObjectName.last ∧ Text.asciiLower n ∉ m.declared.map Text.asciiLower := by
  have hmem : n ∈ NameSet.ofList (m.tables.map ObjectName.last) ↔
      n ∈ m.tables.map ObjectName.last := NameSet.mem_ofList
  rw [← hmem, ← NameSet.mem_toList, reported, NameSet.filter, List.mem_filter, NameSet.mem_toList]
  simp

end Mentions

end DataAccess.Sql
