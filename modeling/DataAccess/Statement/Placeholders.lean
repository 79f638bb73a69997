import DataAccess.Convert.Argument
import DataAccess.Diagnostics.Attempt
import DataAccess.Sql.Query

/-!
The placeholders of a query and the parameters that they read.
-/

set_option autoImplicit false

namespace DataAccess.Statement

open DataAccess.Convert Schema Sql

/-- A parameter of a method with the way it is bound, if there is one. -/
structure QueryParam where
  name : String
  /-- The name that placeholders use. -/
  placeholder : String
  type : TypeExpr
  argument : Option Argument
deriving DecidableEq, Repr

/-- Parameters ready to be bound; every one that cannot be bound is reported. -/
def QueryParam.resolve (store : Store) (p : Param) : Report QueryParam := do
  let argument := store.argument? p.type
  if argument.isNone then Report.error (.cannotBindParameter p.name p.type.display)
  return ⟨p.name, p.placeholder, p.type, argument⟩

/-- A placeholder with the parameter that it reads, if there is one. -/
structure Binding where
  text : String
  target : BindTarget
  param : Option QueryParam
deriving DecidableEq, Repr

namespace Binding

def displayName (b : Binding) : String :=
  match b.target with
  | .named name => name
  | .index _ => b.text

/-- The parameter's name and the way it is bound. -/
def argument? (b : Binding) : Option (String × Argument) := do
  let p ← b.param
  return (p.name, ← p.argument)

/-- The parameter's name and the way it is bound, for a collection. -/
def collection? (b : Binding) : Option (String × Argument) :=
  b.argument?.filter (·.2.isCollection)

end Binding

/-- The parameter that a target selects. -/
def paramOf? (params : List QueryParam) : BindTarget → Option QueryParam
  | .named name => params.find? (·.placeholder = name)
  | .index n => params[priorIndex n]?

/-- A query with the parameters of its method. -/
structure BoundQuery where
  query : Query
  params : List QueryParam

namespace BoundQuery

/-- All placeholders in order. -/
def bindings (b : BoundQuery) : List Binding :=
  (b.query.binds.zip b.query.bindTargets).map fun ((text, _), target) =>
    ⟨text, target, paramOf? b.params target⟩

/-- The placeholders that read no parameter, each once. -/
def missing (b : BoundQuery) : List String :=
  ((b.bindings.filter (·.param.isNone)).map Binding.displayName).eraseDups

/-- The parameters that no placeholder reads. -/
def unused (b : BoundQuery) : List String :=
  let read := b.bindings.filterMap Binding.param
  (b.params.filter fun p => !read.any (·.name = p.name)).map QueryParam.placeholder

/-- The arguments in the order of their placeholders. -/
def arguments (b : BoundQuery) : List (String × Argument) := b.bindings.filterMap Binding.argument?

def hasCollections (b : BoundQuery) : Bool := b.arguments.any (·.2.isCollection)

/-- Reports placeholders without a parameter and parameters without a placeholder. -/
def check (b : BoundQuery) : Report Unit := do
  if !b.missing.isEmpty then Report.error (.missingParameters b.missing)
  if !b.unused.isEmpty then Report.error (.unusedParameters b.unused)

end BoundQuery

end DataAccess.Statement
