import DataAccess.Code.Closure
import DataAccess.Delivery.Reactive
import DataAccess.Sql.StatementKind

/-!
How the outcome of a write reaches the caller: row ids of an insert, the number of affected rows of
an update or delete, or nothing.
-/

set_option autoImplicit false

namespace DataAccess.Delivery

open Code Sql

/-- The entities that a write takes as parameters. -/
inductive EntityParams where
  | one | oneCollection | several
deriving DecidableEq, Repr

/-- What is written: the query of a method, or entities. -/
structure WriteTarget where
  kind : StatementKind
  entities : Option EntityParams := none
deriving DecidableEq, Repr

/-- A statement that is ready to run for one entity, or for each element of a parameter. -/
structure EntityStatement where
  statement : String
  param : String
  /-- The variable for an element, when the parameter is a collection. -/
  item : Option String := none
  /-- The code that binds the entity. -/
  bind : Block
deriving DecidableEq, Repr

inductive StatementSource where
  | statement (name : String)
  | entities (statements : List EntityStatement)
deriving DecidableEq, Repr

/-- A write whose outcome is returned as `returns`. -/
structure WriteResult where
  target : WriteTarget
  returns : TypeExpr
deriving DecidableEq, Repr

namespace WriteTarget

/-- Whether a write can return its outcome as a value of type `t`. -/
def returnsAs (target : WriteTarget) (t : TypeExpr) : Bool :=
  let isOne (p : TypeExpr.Primitive) := t.primitive? = some p
  let isRowIds := t.isVec && (t.args.head?.bind TypeExpr.primitive?) = some .i64
  target.kind.isWrite && (t.isUnit ||
    match target.kind, target.entities with
    | .insert, none | .insert, some .one => isOne .i64
    | .insert, some .oneCollection => isRowIds
    | .insert, some .several => false
    | _, _ => isOne .i32)

def result? (target : WriteTarget) (t : TypeExpr) : Option WriteResult :=
  if target.returnsAs t then some ⟨target, t⟩ else none

end WriteTarget

/-- Writes a line for one entity or for each element of a collection, the entity bound before it. -/
def EntityStatement.writeEach (e : EntityStatement) (line : String) : Emit Unit :=
  match e.item with
  | some item => do
    Emit.enter ("for " ++ item ++ " in &" ++ e.param)
    Emit.splice e.bind
    Emit.statement line
    Emit.leave
  | none => do
    Emit.splice e.bind
    Emit.statement line

namespace WriteResult

def kind (r : WriteResult) : StatementKind := r.target.kind

/-- The call that runs a statement and returns its outcome. -/
def call (r : WriteResult) (statement : String) : String :=
  if r.returns.isUnit then statement ++ ".execute()?"
  else if r.kind = .insert then statement ++ ".execute_insert()?"
  else statement ++ ".execute_update_delete()?"

def writeStatement (r : WriteResult) (statement db : String) : Emit Unit := do
  let outcome ← Emit.fresh "result"
  if r.returns.isUnit then
    Emit.statement (r.call statement)
    Emit.commit db
    Emit.line "Ok(())"
  else
    Emit.statement ("let " ++ outcome ++ " = " ++ r.call statement)
    Emit.commit db
    Emit.line ("Ok(" ++ outcome ++ ")")

/-- Writes the runs for all entities. Returns the expression for the outcome. -/
def writeRuns (r : WriteResult) (entities : List EntityStatement) : Emit String := do
  if r.returns.isUnit then
    entities.forM fun e => e.writeEach (r.call e.statement)
    return "()"
  let outcome ← Emit.fresh (if r.kind = .insert then "result" else "total")
  match r.kind, entities with
  | .insert, [e] =>
    if e.item.isNone then
      Emit.splice e.bind
      Emit.statement ("let " ++ outcome ++ " = " ++ r.call e.statement)
    else
      Emit.statement ("let mut " ++ outcome ++ " = Vec::with_capacity(" ++ e.param ++ ".len())")
      e.writeEach (outcome ++ ".push(" ++ r.call e.statement ++ ")")
  | _, _ =>
    Emit.statement ("let mut " ++ outcome ++ ": i32 = 0")
    entities.forM fun e => e.writeEach (outcome ++ " += " ++ r.call e.statement)
  return outcome

/-- Writes the run of a prepared source inside a transaction, with the outcome as the last line. -/
def write (r : WriteResult) (source : StatementSource) : Emit Unit := do
  let db ← Emit.db
  Emit.beginTransaction db
  match source with
  | .statement name => r.writeStatement name db
  | .entities statements =>
    let outcome ← r.writeRuns statements
    Emit.commit db
    Emit.line ("Ok(" ++ outcome ++ ")")

end WriteResult

inductive WriteDelivery where
  | instant
  /-- From a function that suspends. -/
  | suspending
  | rx (type : RxType)
  | listenableFuture
deriving DecidableEq, Repr

structure WriteBinder where
  delivery : WriteDelivery
  result : Option WriteResult
deriving DecidableEq, Repr

namespace WriteBinder

def isAsync (b : WriteBinder) : Bool := b.delivery = .suspending

/-- The return type of a method that declares `declared`. -/
def returnType (b : WriteBinder) (declared : TypeExpr) : String :=
  match b.delivery with
  | .instant | .suspending => RuntimeNames.resultOf declared.display
  | .rx _ | .listenableFuture => declared.display

/-- Writes the preparation of a write and its run. -/
def writeRun (result : WriteResult) (prepare : Emit StatementSource) : Emit Unit := do
  result.write (← prepare)

def writeDeferred (lead tail : String) (result : WriteResult) (prepare : Emit StatementSource) :
    Emit Unit :=
  Emit.closure lead tail result.returns.display (writeRun result prepare)

/-- Writes the run for a type that may complete empty; a write always produces a value. -/
def writeMaybe (factory : String) (result : WriteResult) (prepare : Emit StatementSource) :
    Emit Unit := do
  let this ← Emit.captureReceiver
  let value ← Emit.fresh "value"
  let (_, body) ← Emit.forkAs this (writeRun result prepare)
  Emit.enter (factory ++ "(move || -> " ++
    RuntimeNames.resultOf ("Option<" ++ result.returns.display ++ ">"))
  Emit.enter ("let " ++ value ++ " =")
  Emit.splice body
  Emit.leaveWith ";"
  Emit.line (value ++ ".map(Some)")
  Emit.leaveWith ")"

/-- Writes the delivery of a write that `prepare` sets up. -/
def write (b : WriteBinder) (prepare : Emit StatementSource) : Emit Unit := do
  let some result := b.result
    | return
  match b.delivery with
  | .instant => writeRun result prepare
  | .rx type =>
    if type.kind = .maybe then writeMaybe type.factory result prepare
    else writeDeferred (type.factory ++ "(") ")" result prepare
  | .listenableFuture =>
    writeDeferred (RuntimeNames.guava ++ "::create_listenable_future_callable(" ++ (← Emit.db) ++
      ".clone(), ") ")" result prepare
  | .suspending =>
    writeDeferred (RuntimeNames.coroutines ++ "::execute_callable(" ++ (← Emit.db) ++
      ".clone(), true, ") ").await" result prepare

end WriteBinder

end DataAccess.Delivery
