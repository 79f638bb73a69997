import DataAccess.Compile.QueryMethod
import DataAccess.Proofs.Delivery.Provision

/-!
The resolution of a query method, followed action by action.
-/

set_option autoImplicit false

namespace DataAccess.Compile

open Code Delivery Rows Schema Sql Statement

theorem steady_queryParam (store : Convert.Store) (p : Param) :
    Steady (QueryParam.resolve store p) := by
  unfold QueryParam.resolve
  dsimp only
  exact Steady.ite ((steady_error _).bind fun _ => steady_pure _) (steady_pure _)

theorem steady_check (b : BoundQuery) : Steady b.check := by
  unfold BoundQuery.check
  refine Steady.checked (steady_error _) ?_
  exact Steady.ite (steady_error _) (steady_pure _)

theorem steady_requireCoroutines (s : Setting) : Steady s.requireCoroutines :=
  Steady.ite (steady_error _) (steady_pure _)

theorem steady_readBinder (s : Setting) (m : Schema.Method) (query : Query) :
    Steady (s.readBinder m query) := by
  unfold Setting.readBinder
  refine Steady.ite ?_ (Providers.steady_readBinder ..)
  exact (steady_requireCoroutines s).bind fun _ => (steady_result ..).bind fun _ => steady_pure _

/-- The delivery of a method that suspends. -/
def suspending (t : TypeExpr) : Plan := .plain .suspending rfl (some t)

theorem run_suspending (t : TypeExpr) (store : Convert.Store) (query : Query) :
    (suspending t).run store query = (do
      return ⟨.suspending, ← (Result.resolve store t query).run⟩) :=
  ReadProvider.run_plain ..

/-- A delivery without errors follows a plan, which the query does not choose. -/
theorem plan_of_readBinder {s : Setting} {m : Schema.Method} {query : Query} {b : ReadBinder}
    (h : Yields (s.readBinder m query) b 0) :
    ∃ plan : Plan, Yields (plan.run s.store query) b 0 ∧ ∀ query' b' n,
      Yields (plan.run s.store query') b' n → Yields (s.readBinder m query') b' n := by
  unfold Setting.readBinder at h ⊢
  by_cases hm : m.suspend = true
  · simp only [if_pos hm] at h ⊢
    obtain ⟨u, hartifact, h⟩ := h.of_bind (steady_requireCoroutines s) fun _ =>
      (steady_result ..).bind fun _ => steady_pure _
    refine ⟨suspending m.returns, ?_, fun query' b' n hb' => ?_⟩
    · rw [run_suspending]
      exact h
    · rw [run_suspending] at hb'
      exact hartifact.andThen hb'
  · simp only [if_neg hm] at h ⊢
    exact Providers.plan_of_readBinder h

theorem steady_writeBinder (s : Setting) (m : Schema.Method) (target : WriteTarget) :
    Steady (s.writeBinder m target) := by
  unfold Setting.writeBinder
  refine Steady.ite ?_ (Providers.steady_writeBinder ..)
  exact (steady_requireCoroutines s).bind fun _ => steady_pure _

namespace QueryMethod

theorem steady_verify (s : Setting) (m : Schema.Method) (query : Query) :
    Steady (verify s m query) := by
  unfold verify
  split
  · refine Steady.ite (steady_pure _) ?_
    dsimp only
    split
    · exact (steady_error _).bind fun _ => steady_pure _
    · exact steady_pure _
  · exact steady_pure _

/-- The delivery of a verified query. -/
def deliver (s : Setting) (m : Schema.Method) (query : Query) : Report Resolution :=
  if query.kind.isWrite then
    return ⟨query, .write (← s.writeBinder m { kind := query.kind })⟩
  else
    return ⟨query, .read (← s.readBinder m query)⟩

theorem resolveQuery_eq (s : Setting) (m : Schema.Method) (query : Query) :
    resolveQuery s m query = verify s m query >>= deliver s m := rfl

theorem steady_deliver (s : Setting) (m : Schema.Method) (query : Query) :
    Steady (deliver s m query) :=
  Steady.ite ((steady_writeBinder ..).bind fun _ => steady_pure _)
    ((steady_readBinder ..).bind fun _ => steady_pure _)

theorem steady_resolveQuery (s : Setting) (m : Schema.Method) (query : Query) :
    Steady (resolveQuery s m query) := by
  rw [resolveQuery_eq]
  exact (steady_verify ..).bind fun _ => steady_deliver ..

theorem steady_checkBinder (m : Schema.Method) (r : Resolution) : Steady (checkBinder m r) := by
  unfold checkBinder
  split
  · split
    · exact Steady.ite (steady_error _) (steady_pure _)
    · exact Steady.ite (steady_warn _ _) (steady_pure _)
  · exact Steady.ite (steady_error _) (steady_pure _)

/-- The first resolution is run on a fork, and its log is kept when it counts. -/
theorem run_resolveNarrowed (s : Setting) (m : Schema.Method) (query : Query) (l : Logger) :
    (resolveNarrowed s m query).run l =
      match rewritten? s ((resolveQuery s m query).run l.fork).1 with
      | some narrowed => (resolveQuery s m narrowed).run l
      | none => (((resolveQuery s m query).run l.fork).1,
          l.replay ((resolveQuery s m query).run l.fork).2.log) := by
  have hstep : (resolveNarrowed s m query).run l =
      (match rewritten? s ((resolveQuery s m query).run l.fork).1 with
      | some narrowed => resolveQuery s m narrowed
      | none => do
        Report.replay ((resolveQuery s m query).run l.fork).2.log
        return ((resolveQuery s m query).run l.fork).1).run l := rfl
  rw [hstep]
  cases rewritten? s ((resolveQuery s m query).run l.fork).1 <;> rfl

/-- The first resolution counts when the query has no narrowed form. -/
theorem yields_resolveNarrowed_none {s : Setting} {m : Schema.Method} {query : Query}
    {first : Resolution} {n : Nat} (h : Yields (resolveQuery s m query) first n)
    (hnone : rewritten? s first = none) : Yields (resolveNarrowed s m query) first n := by
  have hrun : ∀ l, (resolveNarrowed s m query).run l =
      (first, l.replay ((resolveQuery s m query).run l.fork).2.log) := by
    intro l
    rw [run_resolveNarrowed, h.value, hnone]
  constructor
  · intro l
    rw [hrun]
  · intro l
    have herrors := h.errors l.fork
    rw [Logger.errorCount_fork, Nat.zero_add] at herrors
    rw [hrun, Logger.errorCount_replay]
    exact congrArg (l.errorCount + ·) herrors

/-- Only the second resolution counts when there is one. -/
theorem yields_resolveNarrowed_some {s : Setting} {m : Schema.Method} {query narrowed : Query}
    {first second : Resolution} {n k : Nat} (h : Yields (resolveQuery s m query) first n)
    (hsome : rewritten? s first = some narrowed)
    (h' : Yields (resolveQuery s m narrowed) second k) :
    Yields (resolveNarrowed s m query) second k := by
  have hrun : ∀ l, (resolveNarrowed s m query).run l = (resolveQuery s m narrowed).run l := by
    intro l
    rw [run_resolveNarrowed, h.value, hsome]
  exact ⟨fun l => hrun l ▸ h'.value l, fun l => hrun l ▸ h'.errors l⟩

theorem steady_resolveNarrowed (s : Setting) (m : Schema.Method) (query : Query) :
    Steady (resolveNarrowed s m query) := by
  obtain ⟨first, log, hfirst⟩ := steady_resolveQuery s m query
  cases h : rewritten? s first with
  | none =>
    refine ⟨first, log, ⟨fun l => ?_⟩⟩
    rw [run_resolveNarrowed, hfirst.run, h]
    simp [Logger.replay, Logger.fork]
  | some narrowed =>
    obtain ⟨second, log', hsecond⟩ := steady_resolveQuery s m narrowed
    refine ⟨second, log', ⟨fun l => ?_⟩⟩
    rw [run_resolveNarrowed, hfirst.run, h]
    exact hsecond.run l

end QueryMethod

/-- A result is kept when no error was reported. -/
theorem run_unlessReported {α : Type} {act : Report (Option α)} {o : Option α} {n : Nat}
    (h : Yields act o n) (l : Logger) :
    ((unlessReported act).run l).1 = if n = 0 then o else none := by
  have hrun : ((unlessReported act).run l).1 =
      if (act.run l).2.errorCount > l.errorCount then none else (act.run l).1 := rfl
  rw [hrun, h.value, h.errors]
  by_cases hn : n = 0
  · simp [hn]
  · have : l.errorCount + n > l.errorCount := by omega
    rw [if_pos this, if_neg hn]

/-- A result that is kept was answered without errors. -/
theorem Assures.of_unlessReported {α : Type} {act : Report (Option α)} {P : Option α → Prop}
    (h : Assures True act P) {l : Logger} {a : α} (hkept : ((unlessReported act).run l).1 = some a) :
    P (some a) := by
  obtain ⟨o, n, hn⟩ := h.steady.yields
  rw [run_unlessReported hn] at hkept
  split at hkept
  · subst hkept ‹n = 0›
    exact h.holds trivial _ hn
  · cases hkept

namespace QueryMethod

/-- What is reported and answered once the text of a query is there. -/
def resolveText (s : Setting) (m : Schema.Method) (text : String) : Report (Option QueryMethod) := do
  let query := Query.parse text
  let params ← m.params.mapM (QueryParam.resolve s.store)
  if query.hasErrors then
    query.errors.forM fun e => Report.error e.problem
    return none
  let r ← resolveNarrowed s m query
  checkBinder m r
  let bound : BoundQuery := ⟨r.query, params⟩
  bound.check
  return some ⟨m.name, m.returns, bound, m.transaction, r.binder⟩

theorem resolve_eq (s : Setting) (m : Schema.Method) :
    resolve s m = unlessReported (match m.sql with
      | some text => resolveText s m text
      | none => do
        Report.error .missingQuery
        return none) := by
  unfold resolve resolveText
  cases m.sql <;> rfl

section ResolveText

variable {s : Setting} {m : Schema.Method} {text : String}

/-- What is left to do once a query is resolved. -/
def finish (m : Schema.Method) (params : List QueryParam) (r : Resolution) :
    Report (Option QueryMethod) := do
  checkBinder m r
  let bound : BoundQuery := ⟨r.query, params⟩
  bound.check
  return some ⟨m.name, m.returns, bound, m.transaction, r.binder⟩

theorem steady_finish (params : List QueryParam) (r : Resolution) : Steady (finish m params r) :=
  (steady_checkBinder ..).bind fun _ => (steady_check _).bind fun _ => steady_pure _

theorem resolveText_of_errors (h : (Query.parse text).errors = []) :
    resolveText s m text = (do
      let params ← m.params.mapM (QueryParam.resolve s.store)
      let r ← resolveNarrowed s m (Query.parse text)
      finish m params r) := by
  have hnone : (Query.parse text).hasErrors = false := by simp [Query.hasErrors, h]
  unfold resolveText
  simp only [hnone]
  rfl

theorem steady_params (s : Setting) (m : Schema.Method) :
    Steady (m.params.mapM (QueryParam.resolve s.store)) :=
  Steady.mapM (fun p => steady_queryParam s.store p) _

theorem steady_resolveText (s : Setting) (m : Schema.Method) (text : String) :
    Steady (resolveText s m text) := by
  unfold resolveText
  refine (steady_params s m).bind fun params => Steady.ite ?_ ?_
  · exact (Steady.forM (fun _ => steady_error _) _).bind fun _ => steady_pure _
  · exact (steady_resolveNarrowed ..).bind fun r => steady_finish params r

theorem errors_of_resolveText {q : QueryMethod} (h : Yields (resolveText s m text) (some q) 0) :
    (Query.parse text).errors = [] := by
  cases herrors : (Query.parse text).errors with
  | nil => rfl
  | cons e es =>
    have hsome : (Query.parse text).hasErrors = true := by simp [Query.hasErrors, herrors]
    unfold resolveText at h
    simp only [hsome, if_true] at h
    obtain ⟨params, -, h⟩ := h.of_bind (steady_params s m) fun _ =>
      (Steady.forM (fun _ => steady_error _) _).bind fun _ => steady_pure _
    obtain ⟨u, -, h⟩ := h.of_bind (Steady.forM (fun _ => steady_error _) _) fun _ => steady_pure _
    exact absurd (h.unique (yields_pure _)).1 nofun

theorem resolve_isSome_iff_yields (hsql : m.sql = some text) (l : Logger) :
    ((resolve s m).run l).1.isSome ↔ ∃ q, Yields (resolveText s m text) (some q) 0 := by
  obtain ⟨o, n, h⟩ := (steady_resolveText s m text).yields
  have hrun := run_unlessReported h l
  rw [resolve_eq, hsql]
  simp only [hrun]
  constructor
  · intro hsome
    split at hsome
    · subst n
      obtain ⟨q, rfl⟩ := Option.isSome_iff_exists.1 hsome
      exact ⟨q, h⟩
    · exact absurd hsome (by simp)
  · rintro ⟨q, hq⟩
    obtain ⟨rfl, rfl⟩ := h.unique hq
    rfl

end ResolveText

end QueryMethod

theorem resolve_of_missing {s : Setting} {m : Schema.Method} (h : m.sql = none) (l : Logger) :
    ((QueryMethod.resolve s m).run l).1 = none := by
  have hyields : Yields (do
      Report.error .missingQuery
      return none : Report (Option QueryMethod)) none 1 :=
    (yields_error _).bind (f := fun _ => pure none) (yields_pure none)
  rw [QueryMethod.resolve_eq, h]
  exact run_unlessReported hyields l

/-- A method that resolves has a text, and no error was reported on the way. -/
theorem QueryMethod.yields_of_resolve {s : Setting} {m : Schema.Method} {q : QueryMethod} {l : Logger}
    (h : ((resolve s m).run l).1 = some q) :
    ∃ text, m.sql = some text ∧ Yields (resolveText s m text) (some q) 0 := by
  cases hsql : m.sql with
  | none => exact absurd ((resolve_of_missing hsql l).symm.trans h) nofun
  | some text =>
    obtain ⟨o, n, hn⟩ := (steady_resolveText s m text).yields
    have hrun := run_unlessReported hn l
    rw [resolve_eq, hsql] at h
    rw [h] at hrun
    split at hrun
    · subst hrun ‹n = 0›
      exact ⟨text, rfl, hn⟩
    · cases hrun

end DataAccess.Compile
