import DataAccess.Proofs.Compile.Emission
import DataAccess.Proofs.Delivery.ClaimedTypes

/-!
Types whose work may run after a method has returned. Whatever the built-in providers deliver later is
of such a type, and no method that runs in a transaction is generated for one.
-/

set_option autoImplicit false

namespace DataAccess

section ReportsError

variable {α : Type} {p : Problem}

/-- The action reports the problem as an error, in every run. -/
def ReportsError (p : Problem) (act : Report α) : Prop :=
  ∃ a log, Finds act a (Log.under · log) ∧ ⟨.error, p, none⟩ ∈ log

theorem reportsError_error {f : Unit → Report α} (hf : ∀ u, Steady (f u)) :
    ReportsError p (Report.error p >>= f) := by
  obtain ⟨a, log, ha⟩ := hf ()
  have hboth := (finds_error p).bind ha
  exact ⟨a, ⟨.error, p, none⟩ :: log, hboth, List.mem_cons_self⟩

/-- A check before the error. -/
theorem ReportsError.checked {c : Prop} [Decidable c] {check : Report Unit} {rest : Unit → Report α}
    (hcheck : Steady check) (hrest : ReportsError p (rest ())) :
    ReportsError p (if c then check >>= rest else rest ()) := by
  obtain ⟨a, log, ha, hmem⟩ := hrest
  obtain ⟨⟨⟩, before, hbefore⟩ := hcheck
  split
  · refine ⟨a, before ++ log, ?_, List.mem_append_right _ hmem⟩
    simp only [Log.under_append]
    exact hbefore.bind ha
  · exact ⟨a, log, ha, hmem⟩

/-- A result is not kept when an error was reported, and the error is recorded. -/
theorem ReportsError.rejected {act : Report (Option α)} (h : ReportsError p act) (l : Logger) :
    ((Compile.unlessReported act).run l).1 = none ∧
      ⟨.error, p, l.anchor⟩ ∈ ((Compile.unlessReported act).run l).2.log := by
  obtain ⟨o, log, hlog, hmem⟩ := h
  have herrors : log.errors ≠ [] := List.ne_nil_of_mem (List.mem_filter.2 ⟨hmem, rfl⟩)
  rw [(Compile.finds_unlessReported hlog).run, if_neg herrors]
  refine ⟨rfl, List.mem_append_right _ (List.mem_filter.2 ⟨?_, rfl⟩)⟩
  exact List.mem_map_of_mem hmem

end ReportsError

namespace Delivery

open Code

variable {t : TypeExpr} {environment : Environment}

theorem mem_rxTypes (rx : RxType) : rx ∈ RxType.observables ++ RxType.prepared := by
  obtain ⟨version, kind⟩ := rx
  cases version <;> cases kind <;> decide

theorem isDeferred_of_rx {rx : RxType} (h : rx.accepts t = true) : isDeferred t = true :=
  Bool.or_eq_true_iff.2 (.inr (List.any_eq_true.2 ⟨rx, mem_rxTypes rx, h⟩))

/-- The paths of the other deferred types. -/
def deferredPaths : List String :=
  [RuntimeNames.liveData, RuntimeNames.listenableFuture, RuntimeNames.flow,
    RuntimeNames.positionalDataSource, RuntimeNames.dataSource, RuntimeNames.dataSourceFactory,
    RuntimeNames.pagingSource]

theorem isDeferred_of_path {path : String} (hmem : path ∈ deferredPaths)
    (h : t.matchesPath path = true) : isDeferred t = true :=
  Bool.or_eq_true_iff.2 (.inl (List.any_eq_true.2 ⟨path, hmem, h⟩))

/-- A provider that claims types by their paths claims deferred ones only, the cursor apart. -/
theorem ReadProvider.ClaimsByPath.isDeferred {p : ReadProvider} (h : p.ClaimsByPath t)
    (hp : p ≠ .cursor) : isDeferred t = true := by
  obtain ⟨path, arity, hmem, harity, hpath⟩ := h
  have hnamed : (∀ q ∈ p.paths, q.1 ∈ deferredPaths) → Delivery.isDeferred t = true :=
    fun hall => isDeferred_of_path (hall _ hmem) hpath
  cases p with
  | cursor => exact absurd rfl hp
  | instant | custom => cases hmem
  | rxObservable rx | rxCallable rx =>
    cases List.mem_singleton.1 hmem
    exact isDeferred_of_rx (Bool.and_eq_true_iff.2 ⟨decide_eq_true harity, hpath⟩)
  | liveData | listenableFuture | dataSource | dataSourceFactory | pagingSource | flow =>
    exact hnamed (by simp [paths, deferredPaths])

/-- What is delivered later is delivered by a provider that goes by the path. -/
theorem ReadProvider.specific_of_deferred {p : ReadProvider} {store : Convert.Store}
    {query : Sql.Query} (h : ((p.plan t).binder store query).delivery.isDeferred = true) :
    p ≠ .cursor ∧ ¬p.IsGeneral := by
  refine ⟨?_, ?_⟩
  · rintro rfl
    exact absurd h Bool.false_ne_true
  · rintro (rfl | ⟨c, rfl⟩)
    · exact absurd h Bool.false_ne_true
    · exact absurd h Bool.false_ne_true

theorem Providers.isDeferred_of_readBinder {ps : Providers} {setting : Setting} {query : Sql.Query}
    (h : (ps.readBinder setting t query).answer.delivery.isDeferred = true) :
    Delivery.isDeferred t = true := by
  obtain ⟨p, hp, hanswer⟩ := exists_plan_of_readBinder t ps setting query
  rw [hanswer] at h
  obtain ⟨hcursor, hspecific⟩ := ReadProvider.specific_of_deferred h
  obtain rfl | ⟨-, hclaims⟩ := hp
  · exact absurd (.inl rfl) hspecific
  · exact (p.claimsByPath_of_claims hclaims hspecific).isDeferred hcursor

/-- Whether a write runs after the method has returned. -/
def WriteDelivery.RunsLater : WriteDelivery → Prop
  | .rx _ | .listenableFuture => True
  | .instant | .suspending => False

/-- How a provider delivers the outcome of a write. -/
def WriteProvider.delivery : WriteProvider → WriteDelivery
  | rx type => .rx type
  | listenableFuture => .listenableFuture
  | instant | custom _ => .instant

theorem WriteProvider.delivery_provide (p : WriteProvider) (target : WriteTarget) (l : Logger) :
    ((p.provide environment t target).run l).1.delivery = p.delivery := by
  unfold provide
  extract_lets deliver
  have hdeliver : ∀ l, ((deliver ()).run l).1.delivery = p.delivery := by
    intro l
    cases p <;> rfl
  split
  · split
    · exact hdeliver _
    · exact hdeliver l
  · exact hdeliver l

theorem Providers.isDeferred_of_writeBinder {ps : Providers} {target : WriteTarget} {l : Logger}
    (h : ((ps.writeBinder environment t target).run l).1.delivery.RunsLater) :
    Delivery.isDeferred t = true := by
  rw [writeBinder, WriteProvider.delivery_provide] at h
  cases hfind : ps.writes.find? (·.claims environment t) with
  | none =>
    rw [hfind] at h
    exact absurd h id
  | some p =>
    rw [hfind] at h
    have hclaims := List.find?_some hfind
    cases p with
    | rx type => exact isDeferred_of_rx (Bool.and_eq_true_iff.1 hclaims).2
    | listenableFuture =>
      exact isDeferred_of_path (by simp [deferredPaths]) (Bool.and_eq_true_iff.1 hclaims).2
    | instant | custom => exact absurd h id

/-- The built-in providers give the type to a delivery whose work runs after the method has returned. -/
inductive DeliveredLater (environment : Environment) (t : TypeExpr) : Prop
  | read (store : Convert.Store) (query : Sql.Query) (l : Logger)
    (h : ((Providers.builtIn.readBinder ⟨store, environment⟩ t query).run
      l).1.delivery.isDeferred = true)
  | write (target : WriteTarget) (l : Logger)
    (h : ((Providers.builtIn.writeBinder environment t target).run l).1.delivery.RunsLater)

theorem DeliveredLater.isDeferred (h : DeliveredLater environment t) : isDeferred t = true := by
  cases h with
  | read store query l h =>
    rw [(Providers.steady_readBinder ..).determined.run_fst] at h
    exact Providers.isDeferred_of_readBinder h
  | write target l h => exact Providers.isDeferred_of_writeBinder h

end Delivery

namespace Compile

open Delivery

namespace TransactionMethod

theorem rejected_of_isDeferred {s : Setting} {dao : String} {m : Schema.Method}
    (h : isDeferred m.returns = true) (l : Logger) :
    ((resolve s dao m).run l).1 = none ∧
      ⟨.error, .asyncTransaction m.returns.display, l.anchor⟩ ∈ ((resolve s dao m).run l).2.log := by
  refine ReportsError.rejected (.checked (steady_error _) ?_) l
  rw [if_pos h]
  exact reportsError_error fun _ => Steady.checked (steady_requireCoroutines s) (steady_pure _)

/-- Whatever the built-in providers deliver later, to read or to write, is of a deferred type, and a
method that runs its body in a transaction is rejected with an error when it returns such a type. -/
theorem rejected_of_deliveredLater {environment : Environment} {t : TypeExpr}
    (h : DeliveredLater environment t) :
    isDeferred t = true ∧
      ∀ (s : Setting) (dao : String) (m : Schema.Method) (l : Logger), m.returns = t →
        ((resolve s dao m).run l).1 = none ∧
          ⟨.error, .asyncTransaction t.display, l.anchor⟩ ∈ ((resolve s dao m).run l).2.log := by
  refine ⟨h.isDeferred, ?_⟩
  rintro s dao m l rfl
  exact rejected_of_isDeferred h.isDeferred l

def clearMethod : Schema.Method where
  name := "clear"
  kind := .transaction
  returns := .simple "rx3::Completable"

/-- A method cannot clear a table later in a transaction that it has left. -/
theorem rejected_clearMethod :
    let s : Setting :=
      { store := { decls := {}, maxHops := 2, custom := [] }, providers := Providers.builtIn }
    ((resolve s "UserDao" clearMethod).run {}).1 = none ∧
      ⟨.error, .asyncTransaction "rx3::Completable", none⟩ ∈
        ((resolve s "UserDao" clearMethod).run {}).2.log := by
  intro s
  have hdelivery : ((Providers.builtIn.writeBinder {} clearMethod.returns ⟨.delete, none⟩).run
      {}).1.delivery = .rx ⟨.three, .completable⟩ := by decide +kernel
  have hlater : DeliveredLater {} clearMethod.returns :=
    .write ⟨.delete, none⟩ {} (by rw [hdelivery]; trivial)
  exact (rejected_of_deliveredLater hlater).2 s "UserDao" clearMethod {} rfl

end TransactionMethod

end Compile

end DataAccess
