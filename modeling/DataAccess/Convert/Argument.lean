import DataAccess.Convert.Store

/-!
Arguments of queries: a value takes one placeholder, a collection one for each of its elements.
-/

set_option autoImplicit false

namespace DataAccess.Convert

open Code

inductive Argument where
  | value (binder : ValueBinder)
  | collection (element : ValueBinder)
deriving DecidableEq, Repr

namespace Argument

def isCollection : Argument → Bool
  | value _ => false
  | collection _ => true

def binder : Argument → ValueBinder
  | value b | collection b => b

/-- The type of what a single placeholder stands for. -/
def elementType (a : Argument) : TypeExpr := a.binder.type

/-- The expression for the number of placeholders. -/
def sizeExpr (a : Argument) (value : String) : String :=
  if a.isCollection then value ++ ".len()" else "1"

/-- Writes the code that binds `input` from the index that a counter holds, and advances it. -/
def writeRunning (a : Argument) (stmt counter input : String) : Emit Unit :=
  match a with
  | value b => do
    b.write stmt counter input
    Emit.statement (counter ++ " += 1")
  | collection b => do
    let item ← Emit.fresh "item"
    let body ← Emit.fork do
      b.write stmt counter item
      Emit.statement (counter ++ " += 1")
    Emit.enter ("for " ++ item ++ " in " ++ input ++ ".iter().cloned()")
    Emit.splice body
    Emit.leave

/-- Writes the code that binds `input` from a fixed index. -/
def writeAt (a : Argument) (stmt : String) (index : Nat) (input : String) : Emit Unit :=
  match a with
  | value b => b.write stmt (toString index) input
  | collection _ => do
    let counter ← Emit.fresh "arg_index"
    Emit.statement ("let mut " ++ counter ++ ": usize = " ++ toString index)
    a.writeRunning stmt counter input

end Argument

/-- How an argument of type `t` is bound. -/
def Store.argument? (s : Store) (t : TypeExpr) : Option Argument :=
  match t.args, t.isCollection with
  | [element], true => Argument.collection <$> s.binder? element none
  | _, _ => Argument.value <$> s.binder? t none

end DataAccess.Convert
