import DataAccess.Delivery.Provider
import DataAccess.Proofs.Rows.Resolution

/-!
What a provider does with a query. Every delivery is the bare cursor, a result, or a result together
with the tables it depends on, and only the last kind looks at the tables of the query.
-/

set_option autoImplicit false

namespace DataAccess.Delivery

open Rows Sql
open DataAccess.Convert

/-- How a provider delivers a type. -/
inductive Plan where
  | cursor
  /-- The result, adjusted without changing its rows. -/
  | once (delivery : ReadDelivery) (unobserved : delivery.observed? = none)
    (content : Option TypeExpr) (adjust : Result → Result)
    (rows : ∀ r, (adjust r).row = r.row)
  /-- The result whenever a table changes. -/
  | again (delivery : NameSet → ReadDelivery)
    (observed : ∀ tables, (delivery tables).observed? = some tables) (content : Option TypeExpr)

namespace Plan

/-- The result as it is. -/
def plain (delivery : ReadDelivery) (unobserved : delivery.observed? = none)
    (content : Option TypeExpr) : Plan :=
  .once delivery unobserved content id fun _ => rfl

def run (plan : Plan) (store : Store) (query : Query) : Report ReadBinder :=
  match plan with
  | cursor => return { delivery := .cursor }
  | once delivery _ content adjust _ => do
    return ⟨delivery, (← ReadProvider.resultOf store content query).map adjust⟩
  | again delivery _ content => ReadProvider.provideObserved delivery store content query

end Plan

namespace ReadProvider

def pages (kind : PagingKind) (t : TypeExpr) : Plan :=
  .again (.paging kind) (fun _ => rfl) (t.args.getLast?.map TypeExpr.vecOf)

/-- The plan of a provider for a type that it claims. -/
def plan (p : ReadProvider) (t : TypeExpr) : Plan :=
  match p with
  | cursor => .cursor
  | liveData => .again .liveData (fun _ => rfl) t.singleArg?
  | flow => .again .flow (fun _ => rfl) t.singleArg?
  | rxObservable rx => .again (.rxObservable rx) (fun _ => rfl) t.singleArg?
  | dataSource => pages .dataSource t
  | dataSourceFactory => pages .dataSourceFactory t
  | pagingSource => pages .pagingSource t
  | listenableFuture => .plain .listenableFuture rfl t.singleArg?
  | rxCallable rx =>
    if rx.kind = .maybe then
      .plain (.rxCallable rx) rfl (t.singleArg?.map TypeExpr.nullable)
    else if rx.kind = .single then
      .once (.rxCallable rx) rfl t.singleArg? Result.withEmptyError fun r => by
        unfold Result.withEmptyError
        split <;> rfl
    else .plain (.rxCallable rx) rfl t.singleArg?
  | instant => .plain .instant rfl (some t)
  | custom _ => .plain .instant rfl (some (CustomProvider.content t))

/-- Reports the artifact that is not there. -/
def requireArtifact (p : ReadProvider) (environment : Environment) : Report Unit := do
  if let some artifact := p.artifact? then
    if !environment.hasArtifact artifact then Report.error (missingArtifact artifact)

theorem run_plain (delivery : ReadDelivery) (h : delivery.observed? = none)
    (content : Option TypeExpr) (store : Store) (query : Query) :
    (Plan.plain delivery h content).run store query = (do
      return ⟨delivery, ← resultOf store content query⟩) := by
  simp [Plan.plain, Plan.run, Option.map_id]

theorem provide_eq (p : ReadProvider) (setting : Setting) (t : TypeExpr) (query : Query) :
    p.provide setting t query = (do
      requireArtifact p setting.environment
      (p.plan t).run setting.store query) := by
  unfold provide
  extract_lets store deliver
  have hdeliver : ∀ u, deliver u = (p.plan t).run setting.store query := by
    intro u
    cases p with
    | rxCallable rx =>
      simp only [deliver, plan]
      by_cases hmaybe : rx.kind = .maybe
      · rw [if_pos hmaybe, if_pos hmaybe]
        exact (run_plain ..).symm
      · rw [if_neg hmaybe, if_neg hmaybe]
        by_cases hsingle : rx.kind = .single
        · rw [if_pos hsingle]
          simp [Plan.run, hsingle, store]
        · rw [if_neg hsingle]
          simp only [if_neg hsingle]
          exact (run_plain ..).symm
    | instant | listenableFuture | custom => exact (run_plain ..).symm
    | _ => rfl
  unfold requireArtifact
  cases p.artifact? with
  | none => exact hdeliver ()
  | some artifact =>
    cases h : setting.environment.hasArtifact artifact with
    | true => simpa [h] using hdeliver ()
    | false => simp [h, hdeliver]

end ReadProvider

theorem findsOnly_resultOf (store : Store) (t : Option TypeExpr) (query : Query) :
    FindsOnly IsRowProblem (ReadProvider.resultOf store t query) := by
  cases t with
  | none => exact findsOnly_pure none
  | some t => exact findsOnly_result store t query

theorem steady_resultOf (store : Store) (t : Option TypeExpr) (query : Query) :
    Steady (ReadProvider.resultOf store t query) := (findsOnly_resultOf store t query).steady

/-- The tables that are observed for a result and a query. -/
def allTables (result : Option Result) (query : Query) : NameSet :=
  ((result.map Result.tables).getD .empty).union query.tables

/-- What is reported about the observed tables: that there are none. -/
def observationErrors (tables : NameSet) : Log :=
  if tables.isEmpty then [⟨.error, .nothingToObserve, none⟩] else []

theorem finds_observedTables (result : Option Result) (query : Query) :
    Finds (ReadProvider.observedTables result query) (allTables result query)
      (Log.under · (observationErrors (allTables result query))) := by
  unfold ReadProvider.observedTables observationErrors
  change Finds (if (allTables result query).isEmpty = true then _ else _) _ _
  cases (allTables result query).isEmpty with
  | true => exact (finds_error _).bind (f := fun _ => pure _) (finds_pure _)
  | false => exact finds_pure _

theorem finds_observing (delivery : NameSet → ReadDelivery) (result : Option Result)
    (query : Query) :
    Finds (do return ⟨delivery (← ReadProvider.observedTables result query), result⟩)
      (⟨delivery (allTables result query), result⟩ : ReadBinder)
      (Log.under · (observationErrors (allTables result query))) :=
  (finds_observedTables result query).map fun tables => (⟨delivery tables, result⟩ : ReadBinder)

theorem yields_observedTables (result : Option Result) (query : Query) :
    Yields (ReadProvider.observedTables result query) (allTables result query)
      (if (allTables result query).isEmpty then 1 else 0) := by
  have hcount : (observationErrors (allTables result query)).errorCount =
      if (allTables result query).isEmpty then 1 else 0 := by
    unfold observationErrors
    cases (allTables result query).isEmpty <;> rfl
  exact hcount ▸ (finds_observedTables result query).yields

theorem steady_observedTables (result : Option Result) (query : Query) :
    Steady (ReadProvider.observedTables result query) := ⟨_, _, finds_observedTables result query⟩

theorem Plan.steady_run (plan : Plan) (store : Store) (query : Query) :
    Steady (plan.run store query) := by
  cases plan with
  | cursor => exact steady_pure _
  | once => exact (steady_resultOf ..).bind fun _ => steady_pure _
  | again =>
    exact (steady_resultOf ..).bind fun _ =>
      (steady_observedTables ..).bind fun _ => steady_pure _

/-- What comes of a plan. -/
def Plan.binder (plan : Plan) (store : Store) (query : Query) : ReadBinder :=
  match plan with
  | cursor => { delivery := .cursor }
  | once delivery _ content adjust _ =>
    ⟨delivery, (ReadProvider.resultOf store content query).answer.map adjust⟩
  | again delivery _ content =>
    let result := (ReadProvider.resultOf store content query).answer
    ⟨delivery (allTables result query), result⟩

theorem Plan.answer_run (plan : Plan) (store : Store) (query : Query) :
    (plan.run store query).answer = plan.binder store query := by
  cases plan with
  | cursor => rfl
  | once delivery _ content =>
    exact (steady_resultOf store content query).determined.answer_bind (steady_pure _).determined
  | again delivery _ content =>
    refine ((steady_resultOf store content query).determined.answer_bind ?_).trans ?_
    · exact ⟨_, _, finds_observing delivery _ query⟩
    · exact (finds_observing delivery _ query).answer_eq

/-- The result of a delivery was resolved for some type, up to its form. -/
theorem Plan.resolve_of_run {plan : Plan} {store : Store} {query : Query} {b : ReadBinder}
    {result : Result} (h : Yields (plan.run store query) b 0) (hresult : b.result = some result) :
    ∃ t r, Yields (Result.resolve store t query).run (some r) 0 ∧ r.row = result.row := by
  have hcontent : ∀ {content : Option TypeExpr} {r : Result},
      Yields (ReadProvider.resultOf store content query) (some r) 0 →
        ∃ t, Yields (Result.resolve store t query).run (some r) 0 := by
    intro content r hr
    cases content with
    | none => exact absurd (hr.unique (yields_pure none)).1 nofun
    | some t => exact ⟨t, hr⟩
  cases plan with
  | cursor =>
    obtain ⟨rfl, -⟩ := h.unique (yields_pure _)
    exact absurd hresult nofun
  | once delivery unobserved content adjust rows =>
    obtain ⟨found, hfound, h⟩ := h.of_bind (steady_resultOf ..) fun _ => steady_pure _
    obtain ⟨rfl, -⟩ := h.unique (yields_pure _)
    obtain ⟨r, rfl, rfl⟩ := Option.map_eq_some_iff.1 hresult
    obtain ⟨t, ht⟩ := hcontent hfound
    exact ⟨t, r, ht, (rows r).symm⟩
  | again delivery observed content =>
    obtain ⟨found, hfound, h⟩ := h.of_bind (steady_resultOf ..) fun _ =>
      (steady_observedTables ..).bind fun _ => steady_pure _
    obtain ⟨tables, -, h⟩ := h.of_bind (steady_observedTables ..) fun _ => steady_pure _
    obtain ⟨rfl, -⟩ := h.unique (yields_pure _)
    obtain rfl : found = some result := hresult
    obtain ⟨t, ht⟩ := hcontent hfound
    exact ⟨t, result, ht, rfl⟩

section Narrowed

variable {store : Store} {query query' : Query} {info info' : ResultInfo} {record : RecordRow}
  (hinfo : Row.usableInfo query = some info) (hinfo' : Row.usableInfo query' = some info')
  (hcolumns : info'.columnNames = record.mapping.usedColumns)
include hinfo hinfo' hcolumns

theorem yields_resultOf_narrowed {t : Option TypeExpr} {result : Result}
    (h : Yields (ReadProvider.resultOf store t query) (some result) 0)
    (hrecord : result.row.record? = some record) :
    Yields (ReadProvider.resultOf store t query') (some (result.withRecord record)) 0 := by
  cases t with
  | none => exact absurd (h.unique (yields_pure none)).1 nofun
  | some t => exact yields_result_narrowed h hrecord hinfo hinfo' hcolumns

omit hinfo hinfo' hcolumns in
theorem tables_withRecord {result : Result} (hrecord : result.row.record? = some record) :
    (result.withRecord record).tables = result.tables := by
  obtain ⟨form, row⟩ := result
  cases row with
  | record found =>
    obtain rfl := Option.some.inj hrecord
    rfl
  | _ => exact absurd hrecord nofun

/-- Whether a delivery has tables to observe when it reads another query. -/
def ReadBinder.KeepsObserving (b : ReadBinder) (query : Query) : Prop :=
  b.delivery.observed?.isSome → (allTables b.result query).isEmpty = false

/-- A delivery of a record is provided without errors for the columns it reads, unless there are no
tables left to observe. -/
theorem Plan.run_narrowed {plan : Plan} {b : ReadBinder} {result : Result}
    (h : Yields (plan.run store query) b 0) (hresult : b.result = some result)
    (hrecord : result.row.record? = some record) :
    ∃ b' n, Yields (plan.run store query') b' n ∧ b'.result.isSome ∧
      (n = 0 ↔ b.KeepsObserving query') := by
  cases plan with
  | cursor =>
    obtain ⟨rfl, -⟩ := h.unique (yields_pure _)
    exact absurd hresult nofun
  | once delivery unobserved content adjust rows =>
    obtain ⟨found, hfound, h⟩ := h.of_bind (steady_resultOf ..) fun _ => steady_pure _
    obtain ⟨rfl, -⟩ := h.unique (yields_pure _)
    obtain ⟨r, rfl, rfl⟩ := Option.map_eq_some_iff.1 hresult
    rw [rows] at hrecord
    have hnarrowed := yields_resultOf_narrowed hinfo hinfo' hcolumns hfound hrecord
    refine ⟨_, _, hnarrowed.bind (f := fun r => pure _) (yields_pure _), rfl, ?_⟩
    simp [ReadBinder.KeepsObserving, unobserved]
  | again delivery observed content =>
    obtain ⟨found, hfound, h⟩ := h.of_bind (steady_resultOf ..) fun _ =>
      (steady_observedTables ..).bind fun _ => steady_pure _
    obtain ⟨tables, -, h⟩ := h.of_bind (steady_observedTables ..) fun _ => steady_pure _
    obtain ⟨rfl, -⟩ := h.unique (yields_pure _)
    obtain rfl : found = some result := hresult
    have hnarrowed := yields_resultOf_narrowed hinfo hinfo' hcolumns hfound hrecord
    have htables : allTables (some (result.withRecord record)) query' =
        allTables (some result) query' := by
      simp [allTables, tables_withRecord hrecord]
    refine ⟨_, _, hnarrowed.bind ((yields_observedTables ..).bind (yields_pure _)), rfl, ?_⟩
    rw [htables]
    cases hempty : (allTables (some result) query').isEmpty <;>
      simp [ReadBinder.KeepsObserving, observed, hempty]

end Narrowed

section Steady

variable (environment : Environment) (t : TypeExpr)

/-- The problems of return types and of the artifacts that they need. -/
def IsTypeProblem : Problem → Prop
  | .dataSourceType | .pagingSourceKey | .channelReturned _ | .missingCoroutines | .missingGuava
  | .missingRxJava2 | .missingRxJava3 => True
  | _ => False

theorem findsOnly_checkKey {p : Problem} (hp : IsTypeProblem p) :
    FindsOnly IsTypeProblem (ReadProvider.checkKey t p) :=
  FindsOnly.ite (findsOnly_error hp) (findsOnly_pure _)

theorem ReadProvider.findsOnly_claims (p : ReadProvider) :
    FindsOnly IsTypeProblem (p.claims environment t) := by
  have hkey : ∀ {problem}, IsTypeProblem problem →
      FindsOnly IsTypeProblem (do ReadProvider.checkKey t problem; return true) :=
    fun hproblem => (findsOnly_checkKey t hproblem).bind fun _ => findsOnly_pure true
  unfold ReadProvider.claims
  cases p with
  | dataSource =>
    refine FindsOnly.ite (findsOnly_pure _) (FindsOnly.ite (findsOnly_pure _) ?_)
    exact FindsOnly.ite (findsOnly_pure _) (hkey trivial)
  | dataSourceFactory | pagingSource => exact FindsOnly.ite (findsOnly_pure _) (hkey trivial)
  | flow =>
    refine FindsOnly.ite (findsOnly_pure _) (FindsOnly.ite ?_ (findsOnly_pure _))
    exact (findsOnly_error trivial).bind fun _ => findsOnly_pure _
  | cursor | liveData | listenableFuture | rxObservable | rxCallable | instant | custom =>
    exact findsOnly_pure _

theorem Providers.findsOnly_firstClaiming (ps : List ReadProvider) :
    FindsOnly IsTypeProblem (Providers.firstClaiming environment t ps) := by
  induction ps with
  | nil => exact findsOnly_pure none
  | cons p ps ih =>
    exact (p.findsOnly_claims environment t).bind fun _ => FindsOnly.ite (findsOnly_pure _) ih

theorem Providers.steady_firstClaiming (ps : List ReadProvider) :
    Steady (Providers.firstClaiming environment t ps) :=
  (findsOnly_firstClaiming environment t ps).steady

theorem ReadProvider.findsOnly_requireArtifact (p : ReadProvider) :
    FindsOnly IsTypeProblem (p.requireArtifact environment) := by
  have hmissing : ∀ artifact, IsTypeProblem (missingArtifact artifact) := fun artifact => by
    cases artifact <;> trivial
  unfold ReadProvider.requireArtifact
  split
  · exact FindsOnly.ite (findsOnly_error (hmissing _)) (findsOnly_pure _)
  · exact findsOnly_pure _

theorem ReadProvider.steady_requireArtifact (p : ReadProvider) :
    Steady (p.requireArtifact environment) := (p.findsOnly_requireArtifact environment).steady

theorem ReadProvider.steady_provide (p : ReadProvider) (setting : Setting) (query : Query) :
    Steady (p.provide setting t query) := by
  rw [p.provide_eq]
  exact (p.steady_requireArtifact _).bind fun _ => Plan.steady_run ..

theorem ReadProvider.answer_provide (p : ReadProvider) (setting : Setting) (query : Query) :
    (p.provide setting t query).answer = (p.plan t).binder setting.store query := by
  rw [p.provide_eq, (p.steady_requireArtifact _).determined.answer_bind
    (Plan.steady_run ..).determined, Plan.answer_run]

theorem Providers.steady_readBinder (ps : Providers) (setting : Setting) (query : Query) :
    Steady (ps.readBinder setting t query) :=
  (steady_firstClaiming ..).bind fun _ => ReadProvider.steady_provide ..

theorem WriteProvider.steady_provide (p : WriteProvider) (target : WriteTarget) :
    Steady (p.provide environment t target) := by
  unfold WriteProvider.provide
  extract_lets deliver
  have hdeliver : ∀ u, Steady (deliver u) := by
    intro u
    cases p <;> exact steady_pure _
  split
  · exact Steady.ite ((steady_error _).bind hdeliver) (hdeliver ())
  · exact hdeliver ()

theorem Providers.steady_writeBinder (ps : Providers) (target : WriteTarget) :
    Steady (ps.writeBinder environment t target) := WriteProvider.steady_provide ..

end Steady

/-- A delivery without errors follows the plan of one provider. -/
theorem Providers.plan_of_readBinder {ps : Providers} {setting : Setting} {t : TypeExpr}
    {query : Query} {b : ReadBinder} (h : Yields (ps.readBinder setting t query) b 0) :
    ∃ plan : Plan, Yields (plan.run setting.store query) b 0 ∧ ∀ query' b' n,
      Yields (plan.run setting.store query') b' n → Yields (ps.readBinder setting t query') b' n := by
  obtain ⟨p, hp, h⟩ := h.of_bind (steady_firstClaiming ..) fun _ => ReadProvider.steady_provide ..
  rw [ReadProvider.provide_eq] at h
  obtain ⟨u, hartifact, h⟩ := h.of_bind (ReadProvider.steady_requireArtifact ..) fun _ =>
    Plan.steady_run ..
  refine ⟨(p.getD .instant).plan t, h, fun query' b' n hb' => ?_⟩
  have hprovide : Yields ((p.getD .instant).provide setting t query') b' n := by
    rw [ReadProvider.provide_eq]
    exact hartifact.andThen hb'
  exact hp.andThen (f := fun p => (p.getD .instant).provide setting t query') hprovide

end DataAccess.Delivery
