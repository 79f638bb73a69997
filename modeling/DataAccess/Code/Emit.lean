import DataAccess.Code.ClassMembers

/-!
Writing the body of a method: a block, the names of local variables taken so far, and the members
that the class shares.
-/

set_option autoImplicit false

namespace DataAccess.Code

structure Scope where
  members : ClassMembers
  block : Block := {}
  /-- How often each name of a local variable was asked for. -/
  locals : List (String × Nat) := []
  /-- The expression for the object itself. -/
  receiver : String := "self"
deriving DecidableEq

/-- Code that writes code. -/
abbrev Emit := StateM Scope

/-- Counts one more request for a name. -/
def countRequest (name : String) : List (String × Nat) → List (String × Nat)
  | [] => [(name, 1)]
  | (m, n) :: rest => if m = name then (m, n + 1) :: rest else (m, n) :: countRequest name rest

namespace Emit

def onBlock (f : Block → Block) : Emit Unit := modify fun s => { s with block := f s.block }

def line (text : String) : Emit Unit := onBlock (·.line text)

def statement (text : String) : Emit Unit := onBlock (·.statement text)

def comment (text : String) : Emit Unit := onBlock (·.comment text)

def enter (header : String) : Emit Unit := onBlock (·.enter header)

def next (header : String) : Emit Unit := onBlock (·.next header)

def leaveWith (tail : String) : Emit Unit := onBlock (·.leaveWith tail)

def leave : Emit Unit := onBlock Block.leave

def splice (code : Block) : Emit Unit := onBlock (·.splice code)

def receiver : Emit String := return (← get).receiver

/-- The expression for the database. -/
def db : Emit String := return (← receiver) ++ ".db"

/-- The name of a new local variable. -/
def fresh (name : String) : Emit String := do
  let name := "_" ++ trimUnderscores name
  let count := ((← get).locals.lookup name).getD 0
  modify fun s => { s with locals := countRequest name s.locals }
  return if count = 0 then name else name ++ "_" ++ toString count

/-- Writes into a block of its own, with another expression for the object. -/
def forkAs {α : Type} (object : String) (act : Emit α) : Emit (α × Block) := do
  let outer ← get
  set { outer with block := {}, receiver := object }
  let result ← act
  let code := (← get).block
  modify fun s => { s with block := outer.block, receiver := outer.receiver }
  return (result, code)

/-- Writes into a block of its own. -/
def fork (act : Emit Unit) : Emit Block := return (← forkAs (← receiver) act).2

def onMembers {α : Type} (act : StateM ClassMembers α) : Emit α := do
  let (result, members) := act.run (← get).members
  modify fun s => { s with members }
  return result

def sharedField (spec : ClassMembers.FieldSpec) : Emit String := onMembers (ClassMembers.field spec)

def sharedMethod (spec : ClassMembers.MethodSpec) : Emit String := onMembers (ClassMembers.method spec)

/-- Writes the body of another method of the class. -/
def methodBody {α : Type} (act : Emit α) : StateM ClassMembers (α × Block) := do
  let (result, scope) := act.run { members := ← get }
  set scope.members
  return (result, scope.block)

end Emit

end DataAccess.Code
