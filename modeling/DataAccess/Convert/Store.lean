import DataAccess.Convert.Column
import DataAccess.Schema.Declarations

/-!
The converters that are in scope, and the search for a shortest chain of them. Rounds of the search
hold the chains of one length each; a type that an earlier round reached is not reached again.
-/

set_option autoImplicit false

namespace DataAccess.Convert

open Schema

/-- The declarations and the converters that code is generated from. -/
structure Store where
  decls : Declarations
  /-- The longest allowed chain; a store with 0 acts as one with 1. -/
  maxHops : Nat
  /-- The declared converters, those of the innermost scope first. -/
  custom : List CustomConverter
deriving DecidableEq, Repr

/-- The chains that extend those of a round by one step to types that were not visited. -/
def extend (edges : List Converter) (visited : List TypeExpr) (frontier : List Converter) :
    List Converter :=
  frontier.flatMap fun c =>
    (edges.filter fun e => e.source = c.target && !visited.contains e.target).map (c.chain ·)

/-- The first accepted chain of the first round that has one. -/
def searchFrom (edges : List Converter) (accepts : TypeExpr → Bool) :
    (rounds : Nat) → (visited : List TypeExpr) → (frontier : List Converter) → Option Converter
  | 0, _, _ => none
  | rounds + 1, visited, frontier =>
    match frontier.find? (accepts ·.target) with
    | some c => some c
    | none =>
      let visited := frontier.map Converter.target ++ visited
      let next := extend edges visited frontier
      if next.isEmpty then none else searchFrom edges accepts rounds visited next

namespace Store

/-- Single steps in order of preference: declared converters, their lifts, then the built-in pairs of
booleans and integers. -/
def edges (s : Store) : List Converter :=
  let declared := s.custom.map Converter.custom
  declared ++ declared.filterMap Converter.lift? ++
    [.boolToInt, .intToBool, .optionBoolToInt, .optionIntToBool]

/-- A shortest chain from one of `sources` to an accepted type that is not one of them. -/
def search (s : Store) (sources : List TypeExpr) (accepts : TypeExpr → Bool) : Option Converter :=
  let start := s.edges.filter fun e => sources.contains e.source && !sources.contains e.target
  searchFrom s.edges accepts (max s.maxHops 1) sources start

def converter? (s : Store) (source target : TypeExpr) : Option Converter :=
  if source = target then some (.identity source) else s.search [source] (· = target)

/-- The column types with an affinity, or all. -/
def columnTypes (affinity : Option Affinity) : List ColumnType :=
  match affinity with
  | none => ColumnType.all
  | some a => ColumnType.all.filter (·.affinity = a)

def isColumnType (affinity : Option Affinity) (t : TypeExpr) : Bool :=
  (columnTypes affinity).any (·.type = t)

/-- Searches among column types of the given affinity first, then among all. -/
def preferring (affinity : Option Affinity) (find : Option Affinity → Option Converter) :
    Option Converter :=
  match affinity with
  | none => find none
  | some a => (find (some a)).or (find none)

/-- A converter from `t` into a column type, preferably of the given affinity. -/
def intoColumn? (s : Store) (t : TypeExpr) (affinity : Option Affinity) : Option Converter :=
  preferring affinity fun a => s.search [t] (isColumnType a)

/-- A converter from a column type into `t`, preferably of the given affinity. -/
def fromColumn? (s : Store) (t : TypeExpr) (affinity : Option Affinity) : Option Converter :=
  preferring affinity fun a => s.search ((columnTypes a).map ColumnType.type) (· = t)

/-- How values of `t` are bound to a column. -/
def binder? (s : Store) (t : TypeExpr) (affinity : Option Affinity) : Option ValueBinder :=
  match ColumnType.ofType? t with
  | some column => some { type := t, column }
  | none => do
    let c ← s.intoColumn? t affinity
    return ⟨t, ← ColumnType.ofType? c.target, c⟩

/-- How values of `t` are read from a column. -/
def reader? (s : Store) (t : TypeExpr) (affinity : Option Affinity) : Option ValueReader :=
  match ColumnType.ofType? t with
  | some column => some { type := t, column }
  | none => do
    let c ← s.fromColumn? t affinity
    return ⟨t, ← ColumnType.ofType? c.source, c⟩

/-- How values of `t` are kept in a column that is both written and read. -/
def columnAdapter? (s : Store) (t : TypeExpr) (affinity : Option Affinity) :
    Option ColumnAdapter :=
  match ColumnType.ofType? t with
  | some column => some { type := t, column }
  | none => do
    let into ← s.intoColumn? t affinity
    let column ← ColumnType.ofType? into.target
    let back ← s.converter? into.target t
    return ⟨t, column, into, back⟩

end Store

end DataAccess.Convert
