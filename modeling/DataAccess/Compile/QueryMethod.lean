import DataAccess.Compile.Setting

/-!
Methods that run a query of their own. A query that returns more columns than are read is narrowed
and then resolved once more; what was reported for the wider one is forgotten.
-/

set_option autoImplicit false

namespace DataAccess.Compile

open Code Delivery Rows Schema Sql Statement

inductive MethodBinder where
  | read (binder : ReadBinder)
  | write (binder : WriteBinder)

/-- The result that is read, if one is. -/
def MethodBinder.result? : MethodBinder → Option Result
  | read b => b.result
  | write _ => none

/-- A query with the delivery of its result. -/
structure Resolution where
  query : Query
  binder : MethodBinder

structure QueryMethod where
  name : String
  returns : TypeExpr
  bound : BoundQuery
  inTransaction : Bool
  binder : MethodBinder

namespace QueryMethod

/-- The query with what the verifier reports about it. -/
def verify (s : Setting) (m : Schema.Method) (query : Query) : Report Query := do
  match s.verifier with
  | some verifier =>
    if m.skipVerification then return query
    let info := verifier query.original
    if let some reason := info.error then Report.error (.queryRejected reason)
    return { query with resultInfo := some info }
  | none => return query

def resolveQuery (s : Setting) (m : Schema.Method) (query : Query) : Report Resolution := do
  let query ← verify s m query
  if query.kind.isWrite then
    return ⟨query, .write (← s.writeBinder m { kind := query.kind })⟩
  else
    return ⟨query, .read (← s.readBinder m query)⟩

/-- The narrowed form of a resolved query, if there is one. -/
def rewritten? (s : Setting) (r : Resolution) : Option Query := do
  let result ← r.binder.result?
  let query := Rewriter.applyAll s.rewriters r.query result.row
  if query.original = r.query.original then none else some query

/-- Resolves a query, or else its narrowed form. -/
def resolveNarrowed (s : Setting) (m : Schema.Method) (query : Query) : Report Resolution := do
  let (first, log) ← Report.buffered (resolveQuery s m query)
  match rewritten? s first with
  | some narrowed => resolveQuery s m narrowed
  | none =>
    Report.replay log
    return first

/-- Reports a result that cannot be delivered as the method declares. -/
def checkBinder (m : Schema.Method) (r : Resolution) : Report Unit := do
  match r.binder with
  | .read b =>
    match b.result with
    | none => if b.needsResult then Report.error (.noResultAdapter m.returns.display)
    | some result =>
      if result.row.hasRelations && !m.transaction then
        Report.warn .relationQueryWithoutTransaction .relationsWithoutTransaction
  | .write b =>
    if b.result.isNone then
      Report.error (.noWriteResultAdapter m.returns.display r.query.kind.name)

def resolve (s : Setting) (m : Schema.Method) : Report (Option QueryMethod) := unlessReported do
  let some text := m.sql
    | do
      Report.error .missingQuery
      return none
  let query := Query.parse text
  let params ← m.params.mapM (QueryParam.resolve s.store)
  if query.hasErrors then
    query.errors.forM fun e => Report.error e.problem
    return none
  let r ← resolveNarrowed s m query
  checkBinder m r
  let bound : BoundQuery := ⟨r.query, params⟩
  bound.check
  return some ⟨m.name, m.returns, bound, m.transaction, r.binder⟩

/-- Writes the body. Returns the return type and whether the method is asynchronous. -/
def writeBody (m : QueryMethod) : Emit (String × Bool) := do
  match m.binder with
  | .read b =>
    let statement ← m.bound.prepareRead
    b.write statement m.inTransaction
    return (b.delivery.returnType m.returns, b.delivery.isAsync)
  | .write b =>
    b.write (m.bound.prepareWrite m.name)
    return (b.returnType m.returns, b.isAsync)

def write (m : QueryMethod) : StateM ClassMembers Code.Method := do
  let ((returns, isAsync), body) ← Emit.methodBody m.writeBody
  let params := m.bound.params.map fun p => (p.name, p.type)
  return { name := m.name, signature := signature params returns, body, isAsync }

end QueryMethod

end DataAccess.Compile
