import DataAccess.Reference.Catalog

/-!
Names in scope: which column of which source a name denotes, and the names and declared types of
result columns.
-/

set_option autoImplicit false

namespace DataAccess.Reference

namespace SourceOf

/-- What qualifies the columns of a source. -/
def label (s : Source) : String := s.asName.getD (s.name.getD "")

def shares (s : Source) (column : String) : Bool :=
  (s.shared.getD []).any (Text.sameWord · column)

/-- Whether a qualified name can mean the source; `*` stands for the lack of a database. -/
def isNamed (s : Source) (database table : Option String) : Bool :=
  table.all (Text.sameWord s.label) &&
    database.all fun d => if s.home.isNone then d = "*" else s.home.any (Text.sameWord d)

def columnIndex? (s : Source) (column : String) : Option Nat :=
  s.columns.findIdx? (Text.sameWord ·.name column)

end SourceOf

/-- What a name denotes in one scope. -/
inductive Found where
  | absent
  | ambiguous
  /-- A column of a source, or its row id. -/
  | column (source : Nat) (index : Option Nat)
  /-- A column that both sides of a full join share. -/
  | merged
  /-- A result column. -/
  | result (value : Expr)

/-- The columns that a name may denote, so far. -/
structure Candidates where
  count : Nat := 0
  rowIds : Nat := 0
  found : Option (Nat × Option Nat) := none
  isMerged : Bool := false

/-- One query around an expression. -/
structure Scope where
  sources : List Source := []
  /-- The result columns, where their aliases can be used. -/
  results : List (ResultItem Expr) := []
  allowsAggregates : Bool := false
  allowsWindows : Bool := false
  /-- The part of a definition that expressions without queries and variables are confined to. -/
  confinedTo : Option String := none

namespace Scope

/-- Names of the row id. -/
def isRowIdName (name : String) : Bool :=
  ["_ROWID_", "ROWID", "OID"].any (Text.sameWord name)

/-- Adds a column; one that a join shares with an earlier source is the same column. -/
def Candidates.add (c : Candidates) (s : Source) (name : String) (i j : Nat) : Candidates :=
  if c.count = 0 then { c with count := 1, found := some (i, some j) }
  else if !s.shares name then { c with count := c.count + 1, isMerged := false }
  else if !s.join.keepsRight then c
  else if !s.join.keepsLeft then { c with count := 1, found := some (i, some j) }
  else { c with isMerged := true }

/-- The columns of a join in parentheses that a name matches. -/
def groupMatches (s : Source) (table : Option String) (column : String) : List Nat :=
  s.columns.zipIdx.filterMap fun (c, j) =>
    if Text.sameWord c.name column && table.all (fun t => c.table.any (Text.sameWord t)) then some j
    else none

def addSource (database table : Option String) (column : String) (c : Candidates)
    (entry : Source × Nat) : Candidates :=
  let (s, i) := entry
  let inGroup := if s.isGroup then groupMatches s table column else []
  if s.isGroup && (!inGroup.isEmpty || table.isNone) then
    inGroup.foldl (fun c j => Candidates.add c s column i j) c
  else if !s.isNamed database table then c
  else
    let c := match s.columnIndex? column with
      | some j => Candidates.add c s column i j
      | none => c
    if c.count = 0 && s.hasRowId then
      { c with rowIds := c.rowIds + 1, found := some (i, none) }
    else c

/-- The value of the result column with an alias. -/
def aliased? (items : List (ResultItem Expr)) (name : String) : Option Expr :=
  items.findSome? fun
    | .expression value (some asName) _ => if Text.sameWord asName name then some value else none
    | _ => none

/-- What a name denotes: a column of the sources, a row id, or else a result column. -/
def find (scope : Scope) (database table : Option String) (column : String) : Found :=
  let c := scope.sources.zipIdx.foldl (addSource database table column) {}
  let count := if c.count = 0 && isRowIdName column then c.rowIds else c.count
  match count, c.found with
  | 0, _ | _, none =>
    match table, aliased? scope.results column with
    | none, some value => .result value
    | _, _ => .absent
  | 1, some (i, j) => if c.isMerged then .merged else .column i j
  | _, _ => .ambiguous

/-- What a name denotes in the innermost scope that knows it, with the number of scopes there. -/
def findOuter (database table : Option String) (column : String) :
    List Scope → Option (Found × Nat × Scope)
  | [] => none
  | scope :: outer =>
    match scope.find database table column with
    | .absent => findOuter database table column outer
    | found => some (found, outer.length + 1, scope)

/-- The database, the table and the column of a dotted name. -/
def pathParts : List String → Option String × Option String × String
  | [column] => (none, none, column)
  | [table, column] => (none, some table, column)
  | [database, table, column] => (some database, some table, column)
  | _ => (none, none, "")

/-- The name that an expression is, if it is one. -/
def pathOf? : Expr → Option (List String)
  | .name value _ _ => some [value]
  | .member path _ => some path
  | _ => none

/-- The column that an expression denotes, if it denotes one. -/
def columnOf? (scopes : List Scope) (e : Expr) : Option Column := do
  let (database, table, column) := pathParts (← pathOf? e)
  let (found, _, scope) ← findOuter database table column scopes
  match found with
  | .column i index =>
    let source ← scope.sources[i]?
    match index.or source.key with
    | some j => source.columns[j]?
    | none => some { name := "rowid", declared := some "INTEGER" }
  | _ => none

/-- The scope of a term's result columns. -/
def ofTerm (t : Term) : Scope := { sources := t.sources }

/-- The declared type of a value: that of a column, also through subqueries. -/
def declaredWithin : Nat → List Scope → Expr → Option String
  | 0, _, _ => none
  | n + 1, scopes, e =>
    match e with
    | .scalar q =>
      match q.lastTerm.items with
      | .expression value _ _ :: _ => declaredWithin n (ofTerm q.lastTerm :: scopes) value
      | _ => none
    | e => (columnOf? scopes e).bind Column.declared

/-- More nesting than this has no declared type. -/
def maxTypeNesting : Nat := 1000

def declared? (scopes : List Scope) (e : Expr) : Option String :=
  declaredWithin maxTypeNesting scopes e

end Scope

namespace Query

/-- How many columns a query has once it is expanded. -/
def width (q : Query) : Nat := q.lastTerm.items.length

end Query

namespace ResultItem

def value? : ResultItem Expr → Option Expr
  | expression value _ _ => some value
  | _ => none

/-- The name of the `index`-th column of a result; a column keeps the name of its declaration. -/
def name (scopes : List Scope) (index : Nat) : ResultItem Expr → String
  | expression _ (some asName) _ => asName
  | expression value none span =>
    match Scope.columnOf? scopes value with
    | some c => c.name
    | none => if span.isEmpty then "column" ++ toString (index + 1) else span
  | _ => ""

/-- The last part of a name that an expression is, under any collations. -/
def bareName? : Expr → Option String
  | .name value _ _ => some value
  | .member path _ => path.getLast?
  | .collate e _ => bareName? e
  | _ => none

/-- The name of the `index`-th column of a subquery; a column keeps the name it is written with. -/
def innerName (index : Nat) : ResultItem Expr → String
  | expression value asName span =>
    let name := asName.getD ((bareName? value).getD span)
    if name.isEmpty || ["TRUE", "FALSE"].any (Text.sameWord name) then
      "column" ++ toString (index + 1)
    else name
  | _ => ""

/-- A name without a number that tells it apart. -/
def unnumbered (name : String) : String :=
  match name.toList.reverse.dropWhile Char.isDigit with
  | ':' :: rest => if rest.isEmpty then name else String.ofList rest.reverse
  | _ => name

/-- The first numbered form of a name that is not taken, at most `fuel` numbers on. -/
def freshName (taken : List String) (name : String) (number : Nat) : Nat → String
  | 0 => name
  | fuel + 1 =>
    if taken.any (Text.sameWord name) then
      freshName taken (unnumbered name ++ ":" ++ toString (number + 1)) (number + 1) fuel
    else name

/-- Tells equal names apart by numbers. -/
def distinctNames (taken : List String) : List String → List String
  | [] => []
  | name :: names =>
    let name := freshName taken name 0 (taken.length + 1)
    name :: distinctNames (name :: taken) names

end ResultItem

end DataAccess.Reference
