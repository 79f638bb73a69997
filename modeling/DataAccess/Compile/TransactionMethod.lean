import DataAccess.Compile.Setting

/-!
Methods that run a declared body inside a transaction.
-/

set_option autoImplicit false

namespace DataAccess.Compile

open Code Delivery Schema

structure TransactionMethod where
  name : String
  returns : TypeExpr
  params : List (String × TypeExpr)
  dao : String
  /-- The method that holds the body. -/
  delegate : String
  suspend : Bool

namespace TransactionMethod

/-- A transaction is over when its method returns, so nothing deferred can be returned. -/
def resolve (s : Setting) (dao : String) (m : Schema.Method) : Report (Option TransactionMethod) :=
  unlessReported do
    if m.sql.isSome then Report.error .queryInTransactionMethod
    if isDeferred m.returns then Report.error (.asyncTransaction m.returns.display)
    if m.suspend then s.requireCoroutines
    let params := m.params.map fun p => (p.name, p.type)
    return some ⟨m.name, m.returns, params, dao, m.delegateName, m.suspend⟩

def writeBody (m : TransactionMethod) : Emit Unit := do
  let db ← Emit.db
  let arguments := (← Emit.receiver) :: m.params.map Prod.fst
  let call := m.dao ++ "::" ++ m.delegate ++ "(" ++ ", ".intercalate arguments ++ ")"
  if m.suspend then
    Emit.enter (RuntimeNames.coroutines ++ "::with_transaction(&" ++ db ++ ", async move")
    Emit.line (call ++ ".await")
    Emit.leaveWith ").await"
  else
    Emit.beginTransaction db
    let outcome ← Emit.fresh "result"
    Emit.statement ("let " ++ outcome ++ " = " ++ call ++ "?")
    Emit.commit db
    Emit.line ("Ok(" ++ outcome ++ ")")

def write (m : TransactionMethod) : StateM ClassMembers Code.Method := do
  let (_, body) ← Emit.methodBody m.writeBody
  let returns := RuntimeNames.resultOf m.returns.display
  return { name := m.name, signature := signature m.params returns, body, isAsync := m.suspend }

end TransactionMethod

end DataAccess.Compile
