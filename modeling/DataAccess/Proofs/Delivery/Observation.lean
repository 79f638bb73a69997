import DataAccess.Proofs.Delivery.Provision
import DataAccess.Proofs.Delivery.Registration
import DataAccess.Proofs.Rows.AccessedTables

/-!
Deliveries that observe tables. The tables are those that the rows are read from on their own together
with those of the query. When there are none this is reported, once, and nothing else ever reports it;
the code registers the delivery for exactly these tables, or there is no code.
-/

set_option autoImplicit false

namespace DataAccess

/-- The diagnostics of one problem. -/
def Log.about (problem : Problem) (log : Log) : Log := log.filter (·.problem = problem)

theorem Log.about_eq_nil {problem : Problem} {log : Log} (h : ∀ d ∈ log, d.problem ≠ problem)
    (anchor : Option String) (kinds : List Warning) :
    ((log.under anchor).without kinds).about problem = [] := by
  refine List.filter_eq_nil_iff.2 fun d hd => ?_
  obtain ⟨found, hfound, rfl⟩ := List.mem_map.1 (Log.mem_of_mem_without hd)
  simpa using h found hfound

namespace Delivery

open Code Rows Schema Sql

namespace ReadProvider

/-- The delivery of a provider that observes tables. -/
def observing? : ReadProvider → Option (NameSet → ReadDelivery)
  | liveData => some .liveData
  | flow => some .flow
  | rxObservable rx => some (.rxObservable rx)
  | dataSource => some (.paging .dataSource)
  | dataSourceFactory => some (.paging .dataSourceFactory)
  | pagingSource => some (.paging .pagingSource)
  | _ => none

/-- What such a provider reads: the only argument of the type, or pages of its last one. -/
def observedContent? (t : TypeExpr) : ReadProvider → Option TypeExpr
  | dataSource | dataSourceFactory | pagingSource => t.args.getLast?.map TypeExpr.vecOf
  | _ => t.singleArg?

variable {p : ReadProvider} {delivery : NameSet → ReadDelivery}

theorem run_plan_observing (h : p.observing? = some delivery) (store : Convert.Store)
    (t : TypeExpr) (query : Query) :
    (p.plan t).run store query = provideObserved delivery store (p.observedContent? t) query := by
  cases p with
  | cursor | listenableFuture | rxCallable | instant | custom => exact absurd h nofun
  | liveData | flow | rxObservable | dataSource | dataSourceFactory | pagingSource =>
    obtain rfl := Option.some.inj h
    rfl

theorem observed_of_observing (h : p.observing? = some delivery) (tables : NameSet) :
    (delivery tables).observed? = some tables := by
  cases p with
  | cursor | listenableFuture | rxCallable | instant | custom => exact absurd h nofun
  | liveData | flow | rxObservable | dataSource | dataSourceFactory | pagingSource =>
    obtain rfl := Option.some.inj h
    rfl

end ReadProvider

namespace ReadBinder

/-- The delivery observes the tables: those that the rows of its result are read from, and those of the
query. -/
structure Observes (b : ReadBinder) (d : Declarations) (query : Query) (tables : NameSet) : Prop where
  observed : b.delivery.observed? = some tables
  mem_iff : ∀ n, n ∈ tables ↔
    (∃ result, b.result = some result ∧ result.row.Accesses d n) ∨ n ∈ query.tables

/-- The code of the delivery registers it once, with a list of the tables in ascending order. Without a
result, or without tables, there is no code. -/
structure RegistersTables (b : ReadBinder) (tables : NameSet) : Prop where
  sorted : tables.toList.Pairwise (· < ·)
  nothing : b.result = none ∨ tables.isEmpty = true → ∀ statement inTransaction,
    b.write statement inTransaction = pure ()
  once : b.result ≠ none → tables.isEmpty = false → ∀ statement inTransaction (s : Scope),
    s.receiver = "self" → ∃ code,
      ((b.write statement inTransaction).run s).2.block =
        ⟨s.block.lines ++ sunken s.block.depth code, s.block.depth⟩ ∧
      RegistersOnce (b.delivery.IsRegistration statement inTransaction tables.toList) code

variable {b : ReadBinder} {tables : NameSet}

theorem write_eq_pure (hobserved : b.delivery.observed? = some tables)
    (h : b.result = none ∨ tables.isEmpty = true) (statement : String) (inTransaction : Bool) :
    b.write statement inTransaction = pure () := by
  obtain ⟨delivery, result⟩ := b
  cases result with
  | none =>
    cases delivery with
    | cursor => exact absurd hobserved nofun
    | _ => rfl
  | some result =>
    have hempty : tables.isEmpty = true := h.resolve_left nofun
    have hwrite : writeResult delivery result statement inTransaction = pure () := by
      simp [writeResult, show delivery.observed? = some tables from hobserved, hempty]
    cases delivery with
    | cursor => exact absurd hobserved nofun
    | _ => exact hwrite

theorem emitsCall_write (hobserved : b.delivery.observed? = some tables) (hresult : b.result ≠ none)
    (htables : tables.isEmpty = false) (statement : String) (inTransaction : Bool) :
    EmitsCall (b.delivery.IsRegistration statement inTransaction tables.toList) "self" 0 0
      (b.write statement inTransaction) := by
  obtain ⟨delivery, result⟩ := b
  obtain ⟨result, rfl⟩ := Option.ne_none_iff_exists'.1 hresult
  have hwrite := emitsCall_writeResult result statement inTransaction tables hobserved htables
  cases delivery with
  | cursor => exact absurd hobserved nofun
  | _ => exact hwrite

theorem registersTables_of_observed (hobserved : b.delivery.observed? = some tables) :
    b.RegistersTables tables where
  sorted := tables.sorted
  nothing := write_eq_pure hobserved
  once hresult htables statement inTransaction s hs := by
    obtain ⟨code, hblock, -, honce⟩ :=
      emitsCall_write hobserved hresult htables statement inTransaction s s.block.depth hs rfl
    exact ⟨code, hblock, honce⟩

end ReadBinder

theorem mem_allTables_iff {store : Convert.Store} {t : Option TypeExpr} {query : Query}
    {result : Option Result}
    (h : (ReadProvider.resultOf store t query).answer = result) {n : String} :
    n ∈ allTables result query ↔
      (∃ r, result = some r ∧ r.row.Accesses store.decls n) ∨ n ∈ query.tables := by
  rw [allTables, NameSet.mem_union]
  refine or_congr_left ?_
  cases result with
  | none => simp [NameSet.empty, ← NameSet.mem_toList]
  | some r =>
    cases t with
    | none => exact (Option.some_ne_none r h.symm).elim
    | some u =>
      have hgives : (Result.resolve store u query).Gives r := ⟨{}, h⟩
      simp [Result.mem_tables_iff hgives]

theorem about_observationErrors (tables : NameSet) (anchor : Option String) (kinds : List Warning) :
    (((observationErrors tables).under anchor).without kinds).about .nothingToObserve =
      if tables.isEmpty then [⟨.error, .nothingToObserve, anchor⟩] else [] := by
  unfold observationErrors
  cases tables.isEmpty <;> rfl

namespace Providers

variable {setting : Setting} {t : TypeExpr} {p : ReadProvider} {delivery : NameSet → ReadDelivery}

/-- What the provider that claims a type finds, and what it answers. -/
theorem finds_readBinder {ps : Providers}
    (hclaims : (firstClaiming setting.environment t ps.reads).answer = some p)
    (hobserving : p.observing? = some delivery) (query : Query) {result : Option Result}
    (hresult : (ReadProvider.resultOf setting.store (p.observedContent? t) query).answer = result) :
    ∃ log, Finds (ps.readBinder setting t query) ⟨delivery (allTables result query), result⟩
        (Log.under · (log ++ observationErrors (allTables result query))) ∧
      ∀ d ∈ log, d.problem ≠ .nothingToObserve := by
  have htype : ∀ problem, IsTypeProblem problem → problem ≠ .nothingToObserve := by
    rintro problem h rfl
    exact h
  have hrow : ∀ problem, IsRowProblem problem → problem ≠ .nothingToObserve := by
    rintro problem h rfl
    exact h
  obtain ⟨claimed, hclaimed, hlog⟩ :=
    ((findsOnly_firstClaiming setting.environment t ps.reads).imp htype).finds
  obtain ⟨required, hrequired, hlog'⟩ :=
    ((p.findsOnly_requireArtifact setting.environment).imp htype).finds
  obtain ⟨read, hread, hlog''⟩ :=
    ((findsOnly_resultOf setting.store (p.observedContent? t) query).imp hrow).finds
  rw [hclaims] at hclaimed
  rw [hresult] at hread
  refine ⟨claimed ++ required ++ read, ?_, ?_⟩
  · have hprovide : Finds (p.provide setting t query) ⟨delivery (allTables result query), result⟩
        fun anchor => required.under anchor ++ (read.under anchor ++
          (observationErrors (allTables result query)).under anchor) := by
      rw [p.provide_eq]
      refine hrequired.bind ?_
      rw [ReadProvider.run_plan_observing hobserving]
      exact hread.bind (finds_observing delivery result query)
    have hboth := hclaimed.bind (f := fun found => (found.getD .instant).provide setting t query)
      hprovide
    simp only [Log.under_append, List.append_assoc]
    exact hboth
  · simp only [List.forall_mem_append]
    exact ⟨⟨hlog, hlog'⟩, hlog''⟩

/-- A type that the chain of providers gives to one that observes is delivered for exactly the tables
that the rows of the result are read from together with those of the query. That there are none is
reported once if it is so, and never otherwise. The code registers the delivery once with the sorted
list of these tables; without any, or without a result, there is no code. -/
theorem readBinder_observes (l : Logger)
    (hclaims : ((firstClaiming setting.environment t builtIn.reads).run l).1 = some p)
    (hobserving : p.observing? = some delivery) (query : Query) :
    ∃ b tables added, (builtIn.readBinder setting t query).run l = (b, l.replay added) ∧
      (ReadProvider.resultOf setting.store (p.observedContent? t) query).answer = b.result ∧
      b.delivery = delivery tables ∧ b.Observes setting.store.decls query tables ∧
      added.about .nothingToObserve =
        (if tables.isEmpty then [⟨.error, .nothingToObserve, l.anchor⟩] else []) ∧
      b.RegistersTables tables := by
  have hanswer : (firstClaiming setting.environment t builtIn.reads).answer = some p := by
    obtain ⟨log, hlog, -⟩ := (findsOnly_firstClaiming setting.environment t builtIn.reads).finds
    rw [← hclaims, hlog.run]
  obtain ⟨log, hfinds, hlog⟩ := finds_readBinder hanswer hobserving query rfl
  have hobserved := ReadProvider.observed_of_observing hobserving
  refine ⟨_, _, _, hfinds.run l, rfl, rfl, ⟨hobserved _, fun n => mem_allTables_iff rfl⟩, ?_,
    ReadBinder.registersTables_of_observed (hobserved _)⟩
  rw [Log.under_append, Log.without_append, Log.about, List.filter_append, ← Log.about,
    Log.about_eq_nil hlog, List.nil_append, ← Log.about, about_observationErrors]

/-- The town of an address. -/
def townRelation : Relation where
  member := "town"
  type := .optionOf (.simple "Town")
  entity := "Town"
  parentColumn := "town_id"
  entityColumn := "id"

/-- Letters have a sender with an address, which is in a town. -/
def letterSetting : Setting where
  store := {
    decls := {
      entities := [{
        record := { name := "Town", fields := [{ name := "id", type := .simple "i64" }] }
        table := some "towns" }]
      records := [
        { name := "Address", fields := [{ name := "town_id", type := .simple "i64" }]
          relations := [townRelation] },
        { name := "Letter", fields := [{ name := "id", type := .simple "i64" }]
          embedded := [{ member := "sender", type := .simple "Address" }] }] }
    maxHops := 2
    custom := [] }

def lettersQuery : Query where
  original := "SELECT * FROM letters"
  kind := .select
  tables := .ofList ["letters"]

theorem readBinder_observes_letters :
    ((firstClaiming letterSetting.environment (.mk RuntimeNames.flow [.simple "Letter"])
      builtIn.reads).run {}).1 = some .flow ∧
    ∃ (b : ReadBinder) (tables : NameSet), tables.toList = ["letters", "towns"] ∧
      b.delivery = .flow tables ∧ b.Observes letterSetting.store.decls lettersQuery tables ∧
      b.RegistersTables tables := by
  have hclaims : ((firstClaiming letterSetting.environment (.mk RuntimeNames.flow [.simple "Letter"])
      builtIn.reads).run {}).1 = some .flow := by decide +kernel
  have htables : (((builtIn.readBinder letterSetting (.mk RuntimeNames.flow [.simple "Letter"])
      lettersQuery).run {}).1.delivery.observed?.map NameSet.toList) =
        some ["letters", "towns"] := by decide +kernel
  obtain ⟨b, tables, added, hrun, -, hdelivery, hobserves, -, hregisters⟩ :=
    readBinder_observes {} hclaims rfl lettersQuery
  rw [hrun, hobserves.observed] at htables
  exact ⟨hclaims, b, tables, Option.some.inj htables, hdelivery, hobserves, hregisters⟩

end Providers

end Delivery

end DataAccess
