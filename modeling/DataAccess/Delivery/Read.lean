import DataAccess.Code.Closure
import DataAccess.Delivery.Reactive
import DataAccess.Rows.Result

/-!
How the result of a read query reaches the caller: at once, later, or again after every change of
the tables it depends on.
-/

set_option autoImplicit false

namespace DataAccess.Delivery

open Code Rows

inductive PagingKind where
  | dataSource | dataSourceFactory | pagingSource
deriving DecidableEq, Repr

inductive ReadDelivery where
  | instant
  /-- The bare cursor. -/
  | cursor
  /-- From a function that suspends. -/
  | suspending
  | listenableFuture
  | rxCallable (rx : RxType)
  | liveData (tables : NameSet)
  | flow (tables : NameSet)
  | rxObservable (rx : RxType) (tables : NameSet)
  | paging (kind : PagingKind) (tables : NameSet)
deriving DecidableEq

namespace ReadDelivery

/-- Whether the query may run after the method has returned. -/
def isDeferred : ReadDelivery → Bool
  | instant | cursor => false
  | _ => true

/-- The tables whose changes are observed. -/
def observed? : ReadDelivery → Option NameSet
  | liveData tables | flow tables | rxObservable _ tables | paging _ tables => some tables
  | _ => none

def isCancellable : ReadDelivery → Bool
  | suspending | listenableFuture => true
  | _ => false

def isAsync : ReadDelivery → Bool
  | suspending => true
  | _ => false

/-- The return type of a method that declares `declared`. -/
def returnType (declared : TypeExpr) : ReadDelivery → String
  | instant | suspending => RuntimeNames.resultOf declared.display
  | cursor => RuntimeNames.resultOf "Cursor"
  | _ => declared.display

end ReadDelivery

structure ReadBinder where
  delivery : ReadDelivery
  result : Option Result := none

namespace ReadBinder

def emptyPolicy (b : ReadBinder) : EmptyPolicy :=
  match b.delivery, b.result with
  | .cursor, _ => .emptyCollection
  | _, some result => result.emptyPolicy
  | _, none => .error

/-- Whether the delivery needs a reading of the result. -/
def needsResult (b : ReadBinder) : Bool := b.delivery ≠ .cursor

/-- Writes the query and the reading of its result. -/
def writeQuery (result : Result) (statement : String) (signal : Option String)
    (inTransaction : Bool) : Emit Unit := do
  let db ← Emit.db
  if inTransaction then Emit.beginTransaction db
  let cursor ← Emit.fresh "cursor"
  let value ← Emit.fresh "result"
  let cancel := (signal.map fun s => "Some(&" ++ s ++ ")").getD "None"
  Emit.statement ("let " ++ cursor ++ " = CursorGuard::new(db_util::query(&" ++ db ++ ", &" ++
    statement ++ ", false, " ++ cancel ++ ")?)")
  result.write value cursor
  if inTransaction then Emit.commit db
  Emit.line ("Ok(" ++ value ++ ")")

/-- Writes the query inside a closure that is passed to a call. -/
def writeDeferred (lead tail : String) (result : Result) (statement : String)
    (signal : Option String) (inTransaction : Bool) : Emit Unit :=
  Emit.closure lead tail result.type.display (writeQuery result statement signal inTransaction)

/-- Writes the same with a signal that cancels the query; the call depends on it. -/
def writeCancellable (call : (db signal : String) → String) (tail : String) (result : Result)
    (statement : String) (inTransaction : Bool) : Emit Unit := do
  let signal ← Emit.fresh "cancellation_signal"
  Emit.statement ("let " ++ signal ++ " = db_util::create_cancellation_signal()")
  writeDeferred (call (← Emit.db) signal) tail result statement signal inTransaction

/-- Writes the reading of one page inside a closure that is passed to a call. -/
def writePage (lead tail object : String) (result : Result) : Emit Unit := do
  let cursor ← Emit.fresh "cursor"
  let (_, body) ← Emit.forkAs object do
    let page ← Emit.fresh "result"
    result.write page cursor
    Emit.line ("Ok(" ++ page ++ ")")
  Emit.enter (lead ++ "move |" ++ cursor ++ ": &Cursor| -> " ++
    RuntimeNames.resultOf result.type.display)
  Emit.splice body
  Emit.leaveWith tail

def writePaging (kind : PagingKind) (tables : NameSet) (result : Result) (statement : String)
    (inTransaction : Bool) : Emit Unit := do
  let observed := RuntimeNames.literalSlice tables.toList
  let this ← Emit.captureReceiver
  let db ← Emit.db
  match kind with
  | .dataSource =>
    writePage (RuntimeNames.limitOffsetDataSource ++ "::new(" ++ db ++ ".clone(), " ++ statement ++
      ", " ++ toString inTransaction ++ ", " ++ observed ++ ", ") ").into()" this result
  | .dataSourceFactory =>
    let source ← Emit.fresh "this"
    let inner ← Emit.fork do
      Emit.statement ("let " ++ source ++ " = " ++ this ++ ".clone()")
      writePage (RuntimeNames.limitOffsetDataSource ++ "::new(" ++ this ++ ".db.clone(), " ++
        statement ++ ".clone(), " ++ toString inTransaction ++ ", " ++ observed ++ ", ") ")" source
        result
    Emit.enter (RuntimeNames.dataSourceFactory ++ "::new(move ||")
    Emit.splice inner
    Emit.leaveWith ")"
  | .pagingSource =>
    writePage (RuntimeNames.limitOffsetPagingSource ++ "::new(" ++ statement ++ ", " ++ db ++
      ".clone(), " ++ observed ++ ", ") ").into()" this result

/-- Writes the delivery of a result. What would observe no table is not written. -/
def writeResult (delivery : ReadDelivery) (result : Result) (statement : String)
    (inTransaction : Bool) : Emit Unit := do
  if (delivery.observed?.map NameSet.isEmpty).getD false then return
  let db ← Emit.db
  let transaction := toString inTransaction
  match delivery with
  | .cursor => return
  | .instant => writeQuery result statement none inTransaction
  | .suspending =>
    writeCancellable (fun db signal => RuntimeNames.coroutines ++ "::execute(" ++ db ++
      ".clone(), " ++ transaction ++ ", " ++ signal ++ ".clone(), ") ").await" result statement
      inTransaction
  | .listenableFuture =>
    writeCancellable (fun db signal => RuntimeNames.guava ++ "::create_listenable_future(" ++ db ++
      ".clone(), " ++ transaction ++ ", " ++ signal ++ ".clone(), ") ")" result statement
      inTransaction
  | .rxCallable rx => writeDeferred (rx.factory ++ "(") ")" result statement none inTransaction
  | .liveData tables =>
    writeDeferred (db ++ ".invalidation_tracker().create_live_data(" ++
      RuntimeNames.literalSlice tables.toList ++ ", " ++ transaction ++ ", ") ")" result statement
      none inTransaction
  | .flow tables =>
    writeDeferred (RuntimeNames.coroutines ++ "::create_flow(" ++ db ++ ".clone(), " ++
      transaction ++ ", " ++ RuntimeNames.literalSlice tables.toList ++ ", ") ")" result statement
      none inTransaction
  | .rxObservable rx tables =>
    writeDeferred (rx.factory ++ "(" ++ db ++ ".clone(), " ++ transaction ++ ", " ++
      RuntimeNames.literalSlice tables.toList ++ ", ") ")" result statement none inTransaction
  | .paging kind tables => writePaging kind tables result statement inTransaction

/-- Writes the delivery of what a statement returns. -/
def write (b : ReadBinder) (statement : String) (inTransaction : Bool) : Emit Unit :=
  match b.delivery, b.result with
  | .cursor, _ => do
    Emit.line ("db_util::query(&" ++ (← Emit.db) ++ ", &" ++ statement ++ ", false, None)")
  | _, none => return
  | delivery, some result => writeResult delivery result statement inTransaction

end ReadBinder

end DataAccess.Delivery
