import DataAccess.Compile.Plugin
import DataAccess.Proofs.Compile.Emission
import DataAccess.Proofs.Schema.Embedding
import DataAccess.Reference.Database

/-!
Locality of a round. The methods of a data access object are resolved without a look at the other
objects of the project, and nothing that one object does is left behind for the next. So the class
that is generated for an object and what is reported for it are the same in whichever company it is
compiled.
-/

set_option autoImplicit false

namespace DataAccess

open Code Delivery Rows Schema Sql Statement

/-! The data access objects of a project are not looked at while one of them is compiled. -/

variable (daos : List Dao)

namespace Schema.Declarations

/-- The same declarations for other data access objects. -/
def withDaos (d : Declarations) (daos : List Dao) : Declarations := { d with daos }

theorem shapeWithin_withDaos (d : Declarations) (steps : Nat) (lead : String) (t : TypeExpr) :
    (d.withDaos daos).shapeWithin steps lead t = d.shapeWithin steps lead t := by
  induction steps generalizing lead t with
  | zero => rfl
  | succ steps ih =>
    have hrecord : (d.withDaos daos).recordOf? t = d.recordOf? t := rfl
    have hembedded : (d.withDaos daos).embeddedShape steps lead = d.embeddedShape steps lead := by
      funext e
      simp only [embeddedShape, ih]
    cases h : d.recordOf? t with
    | none => rw [shapeWithin_none h, shapeWithin_none (hrecord.trans h)]
    | some record => rw [shapeWithin_succ h, shapeWithin_succ (hrecord.trans h), hembedded]

@[simp] theorem resolveShape_withDaos (d : Declarations) (t : TypeExpr) :
    (d.withDaos daos).resolveShape t = d.resolveShape t := shapeWithin_withDaos ..

end Schema.Declarations

/-- The same store for other data access objects. -/
def Convert.Store.withDaos (store : Store) (daos : List Dao) : Store :=
  { store with decls := store.decls.withDaos daos }

section Rows

variable (store : Convert.Store)

@[simp] theorem resolveShape_store_withDaos (t : TypeExpr) :
    (store.withDaos daos).decls.resolveShape t = store.decls.resolveShape t :=
  store.decls.resolveShape_withDaos ..

@[simp] theorem entityRow_withDaos (e : Entity) :
    EntityRow.resolve (store.withDaos daos) e = EntityRow.resolve store e := by
  unfold EntityRow.resolve
  rw [resolveShape_store_withDaos]
  rfl

@[simp] theorem relatedElement_withDaos (relation : Relation) (e : Entity) (shape : Shape) :
    RelatedRows.resolveElement (store.withDaos daos) relation e shape =
      RelatedRows.resolveElement store relation e shape := by
  unfold RelatedRows.resolveElement
  simp only [entityRow_withDaos]
  rfl

@[simp] theorem relatedRows_withDaos (shape : Shape) (path : List String) (relation : Relation) :
    RelatedRows.resolve (store.withDaos daos) shape path relation =
      RelatedRows.resolve store shape path relation := by
  unfold RelatedRows.resolve
  simp only [resolveShape_store_withDaos, relatedElement_withDaos]
  rfl

@[simp] theorem recordRow_withDaos (shape : Shape) (info : Option ResultInfo) :
    RecordRow.resolve (store.withDaos daos) shape info = RecordRow.resolve store shape info := by
  unfold RecordRow.resolve
  simp only [relatedRows_withDaos]
  rfl

@[simp] theorem row_withDaos (t : TypeExpr) (query : Query) :
    Row.resolve (store.withDaos daos) t query = Row.resolve store t query := by
  unfold Row.resolve
  simp only [resolveShape_store_withDaos, entityRow_withDaos, recordRow_withDaos]
  rfl

@[simp] theorem result_withDaos (t : TypeExpr) (query : Query) :
    Result.resolve (store.withDaos daos) t query = Result.resolve store t query := by
  unfold Result.resolve
  simp only [row_withDaos]
  rfl

@[simp] theorem resultOf_withDaos (t : Option TypeExpr) (query : Query) :
    ReadProvider.resultOf (store.withDaos daos) t query = ReadProvider.resultOf store t query := by
  unfold ReadProvider.resultOf
  simp only [result_withDaos]

@[simp] theorem entityParam_withDaos (p : Param) :
    EntityParam.resolve (store.withDaos daos) p = EntityParam.resolve store p := by
  unfold EntityParam.resolve
  simp only [resolveShape_store_withDaos]
  rfl

@[simp] theorem provideObserved_withDaos (delivery : NameSet → ReadDelivery) (t : Option TypeExpr)
    (query : Query) : ReadProvider.provideObserved delivery (store.withDaos daos) t query =
      ReadProvider.provideObserved delivery store t query := by
  unfold ReadProvider.provideObserved
  simp only [resultOf_withDaos]

theorem provide_withDaos (p : ReadProvider) (s : Delivery.Setting) (t : TypeExpr) (query : Query) :
    p.provide { s with store := s.store.withDaos daos } t query = p.provide s t query := by
  unfold ReadProvider.provide ReadProvider.providePages
  simp only [provideObserved_withDaos, resultOf_withDaos]

theorem readBinder_withDaos (providers : Providers) (s : Delivery.Setting) (t : TypeExpr)
    (query : Query) : providers.readBinder { s with store := s.store.withDaos daos } t query =
      providers.readBinder s t query := by
  unfold Providers.readBinder
  simp only [provide_withDaos]

end Rows

namespace Compile

/-- The same setting for other data access objects. -/
def Setting.withDaos (s : Setting) (daos : List Dao) : Setting :=
  { s with store := s.store.withDaos daos }

section Setting

variable (s : Setting)

theorem setting_readBinder_withDaos (m : Schema.Method) (query : Query) :
    (s.withDaos daos).readBinder m query = s.readBinder m query := by
  have hproviders : (s.withDaos daos).providers.readBinder (s.withDaos daos).toSetting =
      s.providers.readBinder s.toSetting :=
    funext fun t => funext fun q => readBinder_withDaos daos s.providers s.toSetting t q
  have hresult : Result.resolve (s.withDaos daos).store = Result.resolve s.store :=
    funext fun t => funext fun q => result_withDaos daos s.store t q
  unfold Setting.readBinder
  rw [hproviders, hresult]
  rfl

theorem resolveQuery_withDaos (m : Schema.Method) (query : Query) :
    QueryMethod.resolveQuery (s.withDaos daos) m query = QueryMethod.resolveQuery s m query := by
  unfold QueryMethod.resolveQuery
  simp only [setting_readBinder_withDaos]
  rfl

theorem queryMethod_withDaos (m : Schema.Method) :
    QueryMethod.resolve (s.withDaos daos) m = QueryMethod.resolve s m := by
  unfold QueryMethod.resolve QueryMethod.resolveNarrowed
  simp only [resolveQuery_withDaos]
  rfl

theorem entityMethod_withDaos (m : Schema.Method) (kind : StatementKind) :
    EntityMethod.resolve (s.withDaos daos) m kind = EntityMethod.resolve s m kind := by
  have hparam : EntityParam.resolve (s.withDaos daos).store = EntityParam.resolve s.store :=
    funext fun p => entityParam_withDaos daos s.store p
  unfold EntityMethod.resolve
  rw [hparam]
  rfl

theorem resolve_withDaos (dao : String) (m : Schema.Method) :
    ResolvedMethod.resolve (s.withDaos daos) dao m = ResolvedMethod.resolve s dao m := by
  unfold ResolvedMethod.resolve ResolvedMethod.resolveKind
  simp only [queryMethod_withDaos, entityMethod_withDaos]
  rfl

end Setting

/-- The same round for other data access objects. -/
def RoundSetting.withDaos (s : RoundSetting) (daos : List Dao) : RoundSetting :=
  { s with decls := s.decls.withDaos daos }

/-- A data access object is compiled without a look at the others. -/
theorem compileDao_withDaos (s : RoundSetting) :
    compileDao (s.withDaos daos) = compileDao s := by
  have hresolve : ∀ converters, ResolvedMethod.resolve ((s.withDaos daos).forDao converters) =
      ResolvedMethod.resolve (s.forDao converters) := fun converters =>
    funext fun dao => funext fun m => resolve_withDaos daos (s.forDao converters) dao m
  funext dao
  unfold compileDao
  simp only [hresolve]
  rfl

/-! A round. -/

theorem extend_withDaos (r : Registry) (d : Declarations) :
    r.extend (d.withDaos daos) = (r.extend d).withDaos daos := by
  refine List.foldl_hom (fun d : Declarations => d.withDaos daos) ?_
  intro d c
  rfl

theorem steady_openVerifier (openSchema : Declarations → Except String Verifier)
    (d : Declarations) : Steady (openVerifier openSchema d) := by
  unfold openVerifier
  cases openSchema d with
  | ok verifier => exact steady_pure _
  | error reason => exact (steady_warn _ _).bind fun _ => steady_pure _

/-- The verifier that a configuration asks for. -/
def verifierFor (openSchema : Declarations → Except String Verifier) (decls : Declarations)
    (config : Config) : Report (Option Verifier) :=
  if config.verifyQueries then openVerifier openSchema decls else pure none

/-- What a round does before it compiles the first data access object. -/
def prepareRound (openSchema : Declarations → Except String Verifier) (decls : Declarations)
    (config : Config) (registry : Registry) : Report RoundSetting := do
  let verifier ← verifierFor openSchema decls config
  let databaseConverters ←
    Report.anchored (some "database") (convertersInScope decls decls.databaseConverters)
  return {
    decls, config, providers := registry.providers, rewriters := registry.rewriters, verifier
    databaseConverters }

section Round

variable (openSchema : Declarations → Except String Verifier) (decls : Declarations)
  (config : Config) (registry : Registry)

theorem compileAll_eq : compileAll openSchema decls config registry =
    prepareRound openSchema decls config registry >>= fun s => decls.daos.mapM (compileDao s) := by
  unfold compileAll prepareRound verifierFor
  split <;> rfl

theorem determined_prepareRound : Determined (prepareRound openSchema decls config registry) := by
  refine Determined.bind ?_ fun verifier => ?_
  · exact .ite (steady_openVerifier ..).determined (steady_pure _).determined
  · exact ((determined_convertersInScope ..).anchored _).bind fun _ => (steady_pure _).determined

theorem finds_compileAll :
    Finds (compileAll openSchema decls config registry)
      (decls.daos.map fun dao =>
        (compileDao (prepareRound openSchema decls config registry).answer dao).answer) fun anchor =>
      (Report.anchored anchor (prepareRound openSchema decls config registry)).findings ++
        decls.daos.flatMap fun dao =>
          (compileDao (prepareRound openSchema decls config registry).answer dao).findings := by
  rw [compileAll_eq]
  refine (determined_prepareRound openSchema decls config registry).finds.bind ?_
  exact Finds.mapM (fun dao => (finds_compileDao _ dao).settled) decls.daos

/-- What the data access objects of a round share. -/
def roundSetting : RoundSetting :=
  (prepareRound openSchema (registry.extend decls) config registry).answer

/-- What a round finds before it compiles the first data access object. -/
def databaseFindings : Log :=
  (prepareRound openSchema (registry.extend decls) config registry).findings

theorem daos_extend (r : Registry) (d : Declarations) : (r.extend d).daos = d.daos := by
  have h := extend_withDaos d.daos r d
  rw [show d.withDaos d.daos = d from rfl] at h
  rw [h]
  rfl

/-- A round reports what its preparation finds and then what each of its objects finds. -/
theorem runRoundWith_eq : runRoundWith openSchema decls config registry =
    config.suppressed.map fun kinds =>
      ⟨decls.daos.map fun dao =>
          (compileDao (roundSetting openSchema decls config registry) dao).answer,
        (databaseFindings openSchema decls config registry).without kinds ++
          decls.daos.flatMap fun dao =>
            (compileDao (roundSetting openSchema decls config registry) dao).findings.without kinds⟩ := by
  have hprepared := (determined_prepareRound openSchema (registry.extend decls) config registry).finds
  unfold runRoundWith
  cases config.suppressed with
  | error e => rfl
  | ok kinds =>
    have hrun := (finds_compileAll openSchema (registry.extend decls) config registry).run
      { suppressed := kinds }
    rw [← hprepared.findings_eq, Log.without_append, Log.without_flatMap, daos_extend] at hrun
    exact congrArg (fun out : List GeneratedDao × Logger =>
      Except.ok (RoundOutput.mk out.1 out.2.log)) hrun

variable {openSchema}
  (hschema : ∀ decls daos, openSchema (decls.withDaos daos) = openSchema decls)

include hschema

theorem prepareRound_withDaos :
    prepareRound openSchema (decls.withDaos daos) config registry =
      (·.withDaos daos) <$> prepareRound openSchema decls config registry := by
  have hverifier : verifierFor openSchema (decls.withDaos daos) config =
      verifierFor openSchema decls config := by
    unfold verifierFor openVerifier
    rw [hschema]
  unfold prepareRound
  rw [hverifier]
  rfl

theorem roundSetting_withDaos :
    roundSetting openSchema (decls.withDaos daos) config registry =
      (roundSetting openSchema decls config registry).withDaos daos := by
  unfold roundSetting
  rw [extend_withDaos, prepareRound_withDaos _ _ _ _ hschema]
  rfl

theorem databaseFindings_withDaos :
    databaseFindings openSchema (decls.withDaos daos) config registry =
      databaseFindings openSchema decls config registry := by
  unfold databaseFindings
  rw [extend_withDaos, prepareRound_withDaos _ _ _ _ hschema]
  rfl

/-- The data access objects of a round do not show in one another. -/
theorem runRoundWith_withDaos :
    runRoundWith openSchema (decls.withDaos daos) config registry =
      config.suppressed.map fun kinds =>
        ⟨daos.map fun dao =>
            (compileDao (roundSetting openSchema decls config registry) dao).answer,
          (databaseFindings openSchema decls config registry).without kinds ++ daos.flatMap fun dao =>
            (compileDao (roundSetting openSchema decls config registry) dao).findings.without kinds⟩ := by
  rw [runRoundWith_eq, roundSetting_withDaos _ _ _ _ hschema,
    databaseFindings_withDaos _ _ _ _ hschema]
  simp only [compileDao_withDaos]
  rfl

end Round

/-- Elements without an image can be dropped. -/
theorem filterMap_eq_of_sublist {α β : Type} {f : α → Option β} {xs ys : List α}
    (hkept : (xs.filter fun x => (f x).isSome).Sublist ys) (hsub : ys.Sublist xs) :
    ys.filterMap f = xs.filterMap f := by
  have himages : (xs.filter fun x => (f x).isSome).filterMap f = xs.filterMap f := by
    rw [List.filterMap_filter]
    refine List.filterMap_congr fun x _ => ?_
    cases f x <;> rfl
  have hle := hkept.filterMap f
  rw [himages] at hle
  exact (hsub.filterMap f).antisymm hle

/-- Methods that do not resolve leave nothing in the class. -/
theorem answer_compileDao_of_sublist (s : RoundSetting) (dao : Dao) {methods : List Schema.Method}
    (hkept : (dao.methods.filter fun m => (s.resolving dao m).answer.isSome).Sublist methods)
    (hsub : methods.Sublist dao.methods) :
    (compileDao s { dao with methods }).answer = (compileDao s dao).answer := by
  rw [(finds_compileDao s _).answer_eq, (finds_compileDao s dao).answer_eq,
    ← filterMap_eq_of_sublist hkept hsub]
  rfl

/-- A round is local. The class of a data access object and what is reported for it are the same
whatever other objects are compiled with it, the reports stand in the order of the objects behind
those of the database, and methods that do not resolve can be left out. -/
theorem round_local {openSchema : Declarations → Except String Verifier}
    (hschema : ∀ decls daos, openSchema { decls with daos } = openSchema decls)
    (decls : Declarations) (config : Config) (registry : Registry) :
    let s := roundSetting openSchema decls config registry
    (∀ daos, runRoundWith openSchema { decls with daos } config registry =
      config.suppressed.map fun kinds =>
        ⟨daos.map fun dao => (compileDao s dao).answer,
          (databaseFindings openSchema decls config registry).without kinds ++
            daos.flatMap fun dao => (compileDao s dao).findings.without kinds⟩) ∧
    ∀ dao methods, (dao.methods.filter fun m => (s.resolving dao m).answer.isSome).Sublist methods →
      methods.Sublist dao.methods →
      (compileDao s { dao with methods }).answer = (compileDao s dao).answer :=
  ⟨fun daos => runRoundWith_withDaos daos decls config registry hschema,
    fun dao _ hkept hsub => answer_compileDao_of_sublist _ dao hkept hsub⟩

/-- The reference database is opened for the tables and views alone. -/
theorem openSchema_withDaos (decls : Declarations) :
    Reference.openSchema (decls.withDaos daos) = Reference.openSchema decls := by
  have htables : Reference.Database.tableText (decls.withDaos daos) =
      Reference.Database.tableText decls := by
    funext e
    unfold Reference.Database.tableText
    rw [decls.resolveShape_withDaos]
  unfold Reference.openSchema Reference.Database.create Reference.Database.createTables
  rw [htables]
  rfl

/-- A transaction method next to a method whose query is missing. -/
def purgeDao : Dao where
  name := "PurgeDao"
  methods := [{ name := "purge", kind := .transaction }, { name := "lost" }]

theorem round_local_purgeDao :
    (∀ daos, runRoundWith Reference.openSchema { daos } {} .builtIn =
      ({} : Config).suppressed.map fun kinds =>
        ⟨daos.map fun dao => (compileDao (roundSetting Reference.openSchema {} {} .builtIn) dao).answer,
          (databaseFindings Reference.openSchema {} {} .builtIn).without kinds ++
            daos.flatMap fun dao =>
              (compileDao (roundSetting Reference.openSchema {} {} .builtIn) dao).findings.without
                kinds⟩) ∧
    (compileDao (roundSetting Reference.openSchema {} {} .builtIn)
      { purgeDao with methods := [{ name := "purge", kind := .transaction }] }).answer =
      (compileDao (roundSetting Reference.openSchema {} {} .builtIn) purgeDao).answer := by
  have hround := round_local (fun decls daos => openSchema_withDaos daos decls) {} {} .builtIn
  refine ⟨hround.1, hround.2 purgeDao _ ?_ ?_⟩
  · exact List.Sublist.refl [_]
  · exact .cons_cons _ (.cons _ .slnil)

end Compile

end DataAccess
