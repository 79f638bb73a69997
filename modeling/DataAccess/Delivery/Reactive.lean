import DataAccess.Code.RuntimeNames
import DataAccess.Diagnostics.Problem
import DataAccess.Environment

/-!
Reactive return types, and the types whose work may run after a method has returned.
-/

set_option autoImplicit false

namespace DataAccess.Delivery

open Code

inductive RxVersion where
  | two | three
deriving DecidableEq, Repr

namespace RxVersion

def moduleName : RxVersion → String
  | two => "rx2"
  | three => "rx3"

def library : RxVersion → Library
  | two => .rx2
  | three => .rx3

def artifact : RxVersion → Artifact
  | two => .rxJava2
  | three => .rxJava3

end RxVersion

inductive RxKind where
  | flowable | observable | single | maybe | completable
deriving DecidableEq, Repr

namespace RxKind

def typeName : RxKind → String
  | flowable => "Flowable"
  | observable => "Observable"
  | single => "Single"
  | maybe => "Maybe"
  | completable => "Completable"

/-- The function that makes a value of the type. -/
def factoryName : RxKind → String
  | flowable => "create_flowable"
  | observable => "create_observable"
  | single => "create_single"
  | maybe => "create_maybe"
  | completable => "create_completable"

def arity : RxKind → Nat
  | completable => 0
  | _ => 1

end RxKind

structure RxType where
  version : RxVersion
  kind : RxKind
deriving DecidableEq, Repr

namespace RxType

def ofKinds (kinds : List RxKind) : List RxType :=
  [RxVersion.two, .three].flatMap fun version => kinds.map (⟨version, ·⟩)

/-- The types that deliver a result again whenever it changes. -/
def observables : List RxType := ofKinds [.flowable, .observable]

/-- The types that deliver one result. -/
def callables : List RxType := ofKinds [.single, .maybe]

/-- The types that deliver the outcome of a write. -/
def prepared : List RxType := ofKinds [.single, .maybe, .completable]

/-- The path inside the runtime library. -/
def shortPath (t : RxType) : String := t.version.moduleName ++ "::" ++ t.kind.typeName

def path (t : RxType) : String := RuntimeNames.library ++ t.shortPath

def factory (t : RxType) : String :=
  RuntimeNames.library ++ t.version.moduleName ++ "::RxDaoc::" ++ t.kind.factoryName

def accepts (rx : RxType) (t : TypeExpr) : Bool :=
  t.args.length = rx.kind.arity && t.matchesPath rx.path

end RxType

/-- The problem of a return type whose artifact is missing. -/
def missingArtifact : Artifact → Problem
  | .coroutines => .missingCoroutines
  | .guava => .missingGuava
  | .rxJava2 => .missingRxJava2
  | .rxJava3 => .missingRxJava3

/-- Types of values whose work may run after the method that made them has returned. -/
def isDeferred (t : TypeExpr) : Bool :=
  [RuntimeNames.liveData, RuntimeNames.listenableFuture, RuntimeNames.flow,
    RuntimeNames.positionalDataSource, RuntimeNames.dataSource, RuntimeNames.dataSourceFactory,
    RuntimeNames.pagingSource].any t.matchesPath ||
  (RxType.observables ++ RxType.prepared).any (·.accepts t)

end DataAccess.Delivery
