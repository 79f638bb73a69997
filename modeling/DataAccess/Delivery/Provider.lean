import DataAccess.Convert.Store
import DataAccess.Delivery.Read
import DataAccess.Delivery.Write

/-!
Providers choose the delivery of a return type. They are asked in the order of their priorities, and
the first one that claims the type provides for it.
-/

set_option autoImplicit false

namespace DataAccess.Delivery

open Code DataAccess.Convert Rows Sql

/-- What providers work with. -/
structure Setting where
  store : Store
  environment : Environment := {}

/-- A provider that is added to the built-in ones. It claims the types with the last path segment
`claims` and delivers their single argument, or the type itself, at once. -/
structure CustomProvider where
  name : String
  priority : Nat
  claims : String
deriving DecidableEq, Repr

namespace CustomProvider

def accepts (p : CustomProvider) (t : TypeExpr) : Bool := t.simpleName = p.claims

/-- The type that is delivered. -/
def content (t : TypeExpr) : TypeExpr := t.singleArg?.getD t

end CustomProvider

/-- The priority of the providers that accept every type. -/
def lastPriority : Nat := 65535

inductive ReadProvider where
  | cursor
  | liveData
  | listenableFuture
  | rxObservable (rx : RxType)
  | rxCallable (rx : RxType)
  | dataSource
  | dataSourceFactory
  | pagingSource
  | flow
  | instant
  | custom (provider : CustomProvider)
deriving DecidableEq, Repr

namespace ReadProvider

/-- The built-in providers. -/
def builtIn : List ReadProvider :=
  [cursor, liveData, listenableFuture] ++ RxType.observables.map rxObservable ++
    RxType.callables.map rxCallable ++ [dataSource, dataSourceFactory, pagingSource, flow, instant]

def name : ReadProvider → String
  | cursor => "Cursor"
  | liveData => "LiveData"
  | listenableFuture => "ListenableFuture"
  | rxObservable rx | rxCallable rx => rx.shortPath
  | dataSource => "DataSource"
  | dataSourceFactory => "DataSourceFactory"
  | pagingSource => "PagingSource"
  | flow => "Flow"
  | instant => "instant"
  | custom p => p.name

def priority : ReadProvider → Nat
  | cursor => 100
  | liveData => 200
  | listenableFuture => 300
  | rxObservable rx => 400 + RxType.observables.idxOf rx
  | rxCallable rx => 500 + RxType.callables.idxOf rx
  | dataSource => 600
  | dataSourceFactory => 700
  | pagingSource => 800
  | flow => 900
  | instant => lastPriority
  | custom p => p.priority

/-- The artifact that has to be there for a claimed type. -/
def artifact? : ReadProvider → Option Artifact
  | listenableFuture => some .guava
  | rxObservable rx | rxCallable rx => some rx.version.artifact
  | flow => some .coroutines
  | _ => none

/-- Reports `problem` when the key of a paging type is not an `i32`. -/
def checkKey (t : TypeExpr) (problem : Problem) : Report Unit := do
  if (t.args.head?.bind TypeExpr.primitive?) ≠ some .i32 then Report.error problem

/-- Whether the provider claims a type. A claimed type may still be reported as unsupported. -/
def claims (p : ReadProvider) (environment : Environment) (t : TypeExpr) : Report Bool := do
  let is (arity : Nat) (path : String) := t.args.length = arity && t.matchesPath path
  match p with
  | cursor => return is 0 RuntimeNames.cursor
  | liveData => return environment.hasLibrary .lifecycle && is 1 RuntimeNames.liveData
  | listenableFuture => return environment.hasLibrary .guava && is 1 RuntimeNames.listenableFuture
  | rxObservable rx | rxCallable rx =>
    return environment.hasLibrary rx.version.library && rx.accepts t
  | dataSource =>
    if !environment.hasLibrary .paging then return false
    if is 1 RuntimeNames.positionalDataSource then return true
    if !is 2 RuntimeNames.dataSource then return false
    checkKey t .dataSourceType
    return true
  | dataSourceFactory =>
    if !(environment.hasLibrary .paging && is 2 RuntimeNames.dataSourceFactory) then return false
    checkKey t .dataSourceType
    return true
  | pagingSource =>
    if !(environment.hasLibrary .paging && is 2 RuntimeNames.pagingSource) then return false
    checkKey t .pagingSourceKey
    return true
  | flow =>
    if !environment.hasLibrary .coroutines || t.args.length ≠ 1 then return false
    if RuntimeNames.channels.contains t.simpleName then
      Report.error (.channelReturned t.name)
      return false
    return t.matchesPath RuntimeNames.flow
  | instant => return true
  | custom c => return c.accepts t

/-- The reading of a result as a value of the given type, if there is one. -/
def resultOf (store : Store) (t : Option TypeExpr) (query : Query) : Report (Option Result) :=
  match t with
  | some t => (Result.resolve store t query).run
  | none => return none

/-- The tables that are observed for a query. That there are none is reported. -/
def observedTables (result : Option Result) (query : Query) : Report NameSet := do
  let tables := ((result.map Result.tables).getD .empty).union query.tables
  if tables.isEmpty then Report.error .nothingToObserve
  return tables

/-- The delivery of the type's argument whenever an observed table changes. -/
def provideObserved (delivery : NameSet → ReadDelivery) (store : Store) (t : Option TypeExpr)
    (query : Query) : Report ReadBinder := do
  let result ← resultOf store t query
  return ⟨delivery (← observedTables result query), result⟩

/-- The delivery of pages of the type's last argument. -/
def providePages (kind : PagingKind) (store : Store) (t : TypeExpr) (query : Query) :
    Report ReadBinder :=
  provideObserved (.paging kind) store (t.args.getLast?.map TypeExpr.vecOf) query

/-- The delivery of a claimed type. -/
def provide (p : ReadProvider) (setting : Setting) (t : TypeExpr) (query : Query) :
    Report ReadBinder := do
  if let some artifact := p.artifact? then
    if !setting.environment.hasArtifact artifact then Report.error (missingArtifact artifact)
  let store := setting.store
  match p with
  | cursor => return { delivery := .cursor }
  | liveData => provideObserved .liveData store t.singleArg? query
  | flow => provideObserved .flow store t.singleArg? query
  | rxObservable rx => provideObserved (.rxObservable rx) store t.singleArg? query
  | dataSource => providePages .dataSource store t query
  | dataSourceFactory => providePages .dataSourceFactory store t query
  | pagingSource => providePages .pagingSource store t query
  | listenableFuture => return ⟨.listenableFuture, ← resultOf store t.singleArg? query⟩
  | rxCallable rx =>
    if rx.kind = .maybe then
      return ⟨.rxCallable rx, ← resultOf store (t.singleArg?.map TypeExpr.nullable) query⟩
    else
      let result ← resultOf store t.singleArg? query
      return ⟨.rxCallable rx, if rx.kind = .single then result.map Result.withEmptyError else result⟩
  | instant => return ⟨.instant, ← resultOf store t query⟩
  | custom _ => return ⟨.instant, ← resultOf store (CustomProvider.content t) query⟩

end ReadProvider

inductive WriteProvider where
  | rx (rx : RxType)
  | listenableFuture
  | instant
  | custom (provider : CustomProvider)
deriving DecidableEq, Repr

namespace WriteProvider

/-- The built-in providers. -/
def builtIn : List WriteProvider := RxType.prepared.map rx ++ [listenableFuture, instant]

def name : WriteProvider → String
  | rx type => type.shortPath
  | listenableFuture => "ListenableFuture"
  | instant => "instant"
  | custom p => p.name

def priority : WriteProvider → Nat
  | rx type => 400 + RxType.prepared.idxOf type
  | listenableFuture => 600
  | instant => lastPriority
  | custom p => p.priority

/-- The artifact that has to be there for a claimed type. -/
def artifact? : WriteProvider → Option Artifact
  | rx type => some type.version.artifact
  | listenableFuture => some .guava
  | _ => none

/-- Whether the provider claims a type. -/
def claims (p : WriteProvider) (environment : Environment) (t : TypeExpr) : Bool :=
  match p with
  | rx type => environment.hasLibrary type.version.library && type.accepts t
  | listenableFuture =>
    environment.hasLibrary .guava && t.args.length = 1 &&
      t.matchesPath RuntimeNames.listenableFuture
  | instant => true
  | custom c => c.accepts t

/-- The delivery of a claimed type. -/
def provide (p : WriteProvider) (environment : Environment) (t : TypeExpr) (target : WriteTarget) :
    Report WriteBinder := do
  if let some artifact := p.artifact? then
    if !environment.hasArtifact artifact then Report.error (missingArtifact artifact)
  match p with
  | rx type =>
    let content := if type.kind = .completable then .unit else t.singleArg?.getD .unit
    return ⟨.rx type, target.result? content⟩
  | listenableFuture => return ⟨.listenableFuture, t.singleArg?.bind target.result?⟩
  | instant => return ⟨.instant, target.result? t⟩
  | custom _ => return ⟨.instant, target.result? (CustomProvider.content t)⟩

end WriteProvider

/-- Inserts behind everything of the same or a smaller rank. -/
def insertByRank {α : Type} (rank : α → Nat) (a : α) (list : List α) : List α :=
  list.takeWhile (rank · ≤ rank a) ++ a :: list.dropWhile (rank · ≤ rank a)

/-- The providers in the order in which they are asked. -/
structure Providers where
  reads : List ReadProvider := []
  writes : List WriteProvider := []
deriving DecidableEq, Repr

namespace Providers

def registerRead (p : ReadProvider) (providers : Providers) : Providers :=
  { providers with reads := insertByRank ReadProvider.priority p providers.reads }

def registerWrite (p : WriteProvider) (providers : Providers) : Providers :=
  { providers with writes := insertByRank WriteProvider.priority p providers.writes }

def builtIn : Providers :=
  WriteProvider.builtIn.foldl (fun providers p => providers.registerWrite p)
    (ReadProvider.builtIn.foldl (fun providers p => providers.registerRead p) {})

/-- The first of the providers that claims a type. -/
def firstClaiming (environment : Environment) (t : TypeExpr) :
    List ReadProvider → Report (Option ReadProvider)
  | [] => return none
  | p :: rest => do if ← p.claims environment t then return some p else firstClaiming environment t rest

/-- The delivery of a read. A type that nobody claims is delivered at once. -/
def readBinder (providers : Providers) (setting : Setting) (t : TypeExpr) (query : Query) :
    Report ReadBinder := do
  let provider ← firstClaiming setting.environment t providers.reads
  (provider.getD .instant).provide setting t query

/-- The delivery of a write. A type that nobody claims is delivered at once. -/
def writeBinder (providers : Providers) (environment : Environment) (t : TypeExpr)
    (target : WriteTarget) : Report WriteBinder :=
  let provider := (providers.writes.find? (·.claims environment t)).getD .instant
  provider.provide environment t target

end Providers

end DataAccess.Delivery
