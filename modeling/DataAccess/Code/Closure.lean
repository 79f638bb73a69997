import DataAccess.Code.Emit
import DataAccess.Code.RuntimeNames

/-!
Code that runs in a transaction, and code that runs later inside a closure.
-/

set_option autoImplicit false

namespace DataAccess.Code.Emit

/-- Writes the start of a transaction that ends with its scope. -/
def beginTransaction (db : String) : Emit Unit := do
  let transaction ← fresh "transaction"
  statement ("let " ++ transaction ++ " = TransactionGuard::begin(&" ++ db ++ ")")

/-- Writes the mark that a transaction is to be kept. -/
def commit (db : String) : Emit Unit := statement (db ++ ".set_transaction_successful()")

/-- Writes a copy of the object, for a closure to own. -/
def captureReceiver : Emit String := do
  let this ← fresh "this"
  statement ("let " ++ this ++ " = " ++ (← receiver) ++ ".clone()")
  return this

/-- Writes the call that starts with `lead` and ends with `tail` and takes a closure with the given
type of value. Inside the closure the object is a copy. -/
def closure (lead tail type : String) (act : Emit Unit) : Emit Unit := do
  let this ← captureReceiver
  let (_, body) ← forkAs this act
  enter (lead ++ "move || -> " ++ RuntimeNames.resultOf type)
  splice body
  leaveWith tail

end DataAccess.Code.Emit
