import DataAccess.Compile.Round
import DataAccess.Proofs.Compile.ConverterScopes
import DataAccess.Proofs.Compile.Resolution

/-!
Which methods are emitted. A method resolves exactly when nothing was reported against it as an
error, whichever way its resolution ends; what a discarded pass reported does not count. The class
that is generated has the methods that resolve, in the order of their declaration.
-/

set_option autoImplicit false

namespace DataAccess.Compile

open Code Delivery Schema Sql Statement
open DataAccess.Convert

section Accounted

variable {α β : Type} {P : α → Prop} {act : Report (Option α)}

/-- The action answers with a value that has the property, or else with nothing and an error. -/
def Accounted (P : α → Prop) (act : Report (Option α)) : Prop :=
  ∃ o log, Finds act o (Log.under · log) ∧ (∀ a ∈ o, P a) ∧ (o = none → log.errors ≠ [])

/-- The action answers with a value exactly when it reports no error. -/
def Exact (P : α → Prop) (act : Report (Option α)) : Prop :=
  ∃ o log, Finds act o (Log.under · log) ∧ (∀ a ∈ o, P a) ∧ (o.isSome ↔ log.errors = [])

theorem accounted_some {a : α} (h : P a) : Accounted P (pure (some a)) :=
  ⟨some a, [], finds_pure _, fun _ hb => Option.some.inj hb ▸ h, nofun⟩

theorem Accounted.bind {x : Report β} {f : β → Report (Option α)} (hx : Steady x)
    (hf : ∀ b, Accounted P (f b)) : Accounted P (x >>= f) := by
  obtain ⟨b, log, hb⟩ := hx
  obtain ⟨o, log', ho, hP, hnone⟩ := hf b
  refine ⟨o, log ++ log', ?_, hP, fun h => ?_⟩
  · simp only [Log.under_append]
    exact hb.bind ho
  · rw [Log.errors_append]
    exact List.append_ne_nil_of_right_ne_nil _ (hnone h)

/-- After an error nothing more has to be accounted for. -/
theorem accounted_none {x : Report β} {log : Log} {b : β} (hx : Finds x b (Log.under · log))
    (herror : log.errors ≠ []) : Accounted P (x >>= fun _ => pure none) := by
  refine ⟨none, log, ?_, nofun, fun _ => herror⟩
  have hnone := hx.bind (f := fun _ => pure (none : Option α)) (finds_pure none)
  simpa only [List.append_nil] using hnone

/-- A check that a condition asks for, before everything else. -/
theorem Accounted.checked {c : Prop} [Decidable c] {check : Report Unit}
    {rest : Unit → Report (Option α)} (hcheck : Steady check) (hrest : Accounted P (rest ())) :
    Accounted P (if c then check >>= rest else rest ()) :=
  iteInduction (fun _ => .bind hcheck fun _ => hrest) fun _ => hrest

theorem finds_unlessReported {o : Option α} {log : Log} (h : Finds act o (Log.under · log)) :
    Finds (unlessReported act) (if log.errors = [] then o else none) (Log.under · log) := by
  refine ⟨fun l => Prod.ext ?_ ?_⟩
  · rw [run_unlessReported h.yields l]
    simp only [Log.errorCount, List.length_eq_zero_iff]
  · have hrun : ((unlessReported act).run l).2 = (act.run l).2 := rfl
    rw [hrun, h.run]

theorem Accounted.exact (h : Accounted P act) : Exact P (unlessReported act) := by
  obtain ⟨o, log, hlog, hP, hnone⟩ := h
  refine ⟨_, log, finds_unlessReported hlog, ?_, ?_⟩
  · intro a ha
    split at ha
    · exact hP a ha
    · exact absurd ha nofun
  · by_cases herrors : log.errors = []
    · cases o with
      | none => exact absurd herrors (hnone rfl)
      | some a => simp [herrors]
    · simp [herrors]

theorem Exact.map {Q : β → Prop} {g : α → β} (hg : ∀ a, P a → Q (g a)) (h : Exact P act) :
    Exact Q (do return (← act).map g) := by
  obtain ⟨o, log, hlog, hP, hiff⟩ := h
  refine ⟨o.map g, log, hlog.map (Option.map g), ?_, by rwa [Option.isSome_map]⟩
  intro b hb
  obtain ⟨a, rfl, rfl⟩ := Option.map_eq_some_iff.1 hb
  exact hg a (hP a rfl)

end Accounted

/-- The columns are bound one by one, and every one that is not is reported. -/
theorem bindColumns_eq (store : Store) (entity : Entity) (shape : Shape) :
    ∃ g : FieldPath → Report (Option BoundColumn),
      EntityParam.bindColumns store entity shape = shape.allFields.mapM g ∧
        ∀ place, Steady (g place) ∧ ∀ c, Yields (g place) c 0 → c.isSome := by
  refine ⟨_, rfl, fun place => ?_⟩
  split
  · exact ⟨steady_pure _, fun c hc => by rw [(hc.unique (yields_pure _)).1]; rfl⟩
  · refine ⟨(steady_error _).bind fun _ => steady_pure _, fun c hc => ?_⟩
    obtain ⟨⟨⟩, herror, -⟩ := hc.of_bind (steady_error _) fun _ => steady_pure _
    exact absurd (herror.unique (yields_error _)).2 nofun

theorem steady_bindColumns (store : Store) (entity : Entity) (shape : Shape) :
    Steady (EntityParam.bindColumns store entity shape) := by
  obtain ⟨g, hbind, hg⟩ := bindColumns_eq store entity shape
  rw [hbind]
  exact Steady.mapM (fun place => (hg place).1) _

theorem steady_checkPrimaryKey (entity : Entity) (shape : Shape) :
    Steady (EntityParam.checkKey entity shape) :=
  (Steady.forM (fun _ => steady_error _) _).bind fun _ => steady_pure _

theorem isSome_of_bindColumns {store : Store} {entity : Entity} {shape : Shape}
    {columns : List (Option BoundColumn)}
    (h : Yields (EntityParam.bindColumns store entity shape) columns 0) :
    (columns.mapM id).isSome := by
  obtain ⟨g, hbind, hg⟩ := bindColumns_eq store entity shape
  rw [hbind] at h
  have hcolumns := h.of_mapM fun place => (hg place).1
  clear hbind h
  generalize shape.allFields = places at hcolumns
  induction hcolumns with
  | nil => rfl
  | @cons place c places columns hc _ ih =>
    obtain ⟨bound, rfl⟩ := Option.isSome_iff_exists.1 ((hg place).2 c hc)
    obtain ⟨rest, hrest⟩ := Option.isSome_iff_exists.1 ih
    simp [hrest]

theorem eq_true_of_checkKey {entity : Entity} {shape : Shape} {checked : Bool}
    (h : Yields (EntityParam.checkKey entity shape) checked 0) : checked = true := by
  let missing := entity.primaryKey.filter fun key => (shape.findByColumn? key).isNone
  obtain ⟨⟨⟩, hmissing, h⟩ := h.of_bind (Steady.forM (fun _ => steady_error _) missing) fun _ =>
    steady_pure _
  obtain ⟨rfl, -⟩ := h.unique (yields_pure _)
  have hnone := hmissing.of_forM fun _ => steady_error _
  refine List.isEmpty_iff.2 (List.eq_nil_iff_forall_not_mem.2 fun key hkey => ?_)
  exact absurd ((hnone key hkey).unique (yields_error _)).2 nofun

/-- A parameter that is not resolved is reported. -/
theorem tells_entityParam (store : Store) (p : Param) : (EntityParam.resolve store p).Tells True := by
  unfold EntityParam.resolve
  extract_lets isCollection element
  split
  · rename_i entity _
    refine (tells_ofExcept _).bind fun shape => ?_
    refine (tells_lift (steady_bindColumns store entity shape)).bind fun columns => ?_
    refine (tells_lift (steady_checkPrimaryKey entity shape)).bind fun checked => ?_
    split
    · exact tells_pure _
    · rename_i hother
      refine tells_failure fun ⟨⟨_, hcolumns⟩, hchecked⟩ => ?_
      obtain ⟨bound, hbound⟩ := Option.isSome_iff_exists.1
        (isSome_of_bindColumns (hcolumns.of_lift (steady_bindColumns store entity shape)))
      exact hother bound hbound (eq_true_of_checkKey
        (hchecked.of_lift (steady_checkPrimaryKey entity shape)))
  · exact tells_reject _

theorem steady_entityParam (store : Store) (p : Param) : Steady (EntityParam.resolve store p).run :=
  (tells_entityParam store p).steady

namespace EntityMethod

theorem steady_checkDeclaration (m : Schema.Method) (kind : StatementKind) :
    Steady (checkDeclaration m kind) := by
  unfold checkDeclaration
  refine Steady.checked (steady_error _) ?_
  refine Steady.checked (steady_error _) ?_
  exact Steady.ite (steady_error _) (steady_pure _)

theorem steady_checkKeys (kind : StatementKind) (params : List EntityParam) :
    Steady (checkKeys kind params) :=
  Steady.ite (Steady.forM (fun _ => steady_error _) _) (steady_pure _)

theorem exact_resolve (s : Setting) (m : Schema.Method) (kind : StatementKind) :
    Exact (fun r => r.name = m.name) (resolve s m kind) := by
  refine Accounted.exact (Accounted.bind (steady_checkDeclaration m kind) fun _ => ?_)
  refine Accounted.bind (Steady.filterMapM (fun p => steady_entityParam s.store p) _) fun params => ?_
  refine Accounted.bind (steady_checkKeys kind params) fun _ => ?_
  refine Accounted.bind (steady_writeBinder ..) fun binder => ?_
  exact Accounted.checked (steady_error _) (accounted_some rfl)

end EntityMethod

theorem TransactionMethod.exact_resolve (s : Setting) (dao : String) (m : Schema.Method) :
    Exact (fun r => r.name = m.name) (resolve s dao m) := by
  refine Accounted.exact ?_
  refine Accounted.checked (steady_error _) ?_
  refine Accounted.checked (steady_error _) ?_
  exact Accounted.checked (steady_requireCoroutines s) (accounted_some rfl)

namespace QueryMethod

/-- What is reported about a text that is not a query. -/
def parseLog (query : Query) : Log := query.errors.map fun e => ⟨.error, e.problem, none⟩

theorem finds_parseErrors (query : Query) :
    Finds (query.errors.forM fun e => Report.error e.problem) () (Log.under · (parseLog query)) := by
  have hfound := Finds.forM (g := fun e : QueryError => Report.error e.problem)
    (fun _ => finds_error _) query.errors
  simp only [← List.map_eq_flatMap] at hfound
  simp only [Log.under, parseLog, List.map_map]
  exact hfound

theorem errors_parseLog (query : Query) : (parseLog query).errors = parseLog query := by
  refine List.filter_eq_self.2 fun d hd => ?_
  obtain ⟨e, -, rfl⟩ := List.mem_map.1 hd
  rfl

theorem accounted_reject {P : QueryMethod → Prop} (p : Problem) :
    Accounted P (do
      Report.error p
      return none) := by
  have herror : Log.errors [⟨.error, p, none⟩] ≠ [] := nofun
  exact accounted_none (finds_error p) herror

theorem exact_resolve (s : Setting) (m : Schema.Method) :
    Exact (fun r => r.name = m.name) (resolve s m) := by
  rw [resolve_eq]
  refine Accounted.exact ?_
  cases m.sql with
  | none => exact accounted_reject _
  | some text =>
    unfold resolveText
    refine Accounted.bind (steady_params s m) fun params => ?_
    refine iteInduction (fun herrors => ?_) fun _ => ?_
    · refine accounted_none (finds_parseErrors _) ?_
      rw [errors_parseLog]
      simpa [parseLog, Query.hasErrors] using herrors
    · refine Accounted.bind (steady_resolveNarrowed ..) fun r => ?_
      refine Accounted.bind (steady_checkBinder ..) fun _ => ?_
      exact Accounted.bind (steady_check _) fun _ => accounted_some rfl

/-- Only the form of a query that is kept is resolved, as far as anyone can tell: a pass that is
discarded leaves nothing behind. -/
theorem resolveNarrowed_eq (s : Setting) (m : Schema.Method) (query : Query) :
    resolveNarrowed s m query =
      resolveQuery s m ((rewritten? s (resolveQuery s m query).answer).getD query) := by
  obtain ⟨first, log, hfirst⟩ := steady_resolveQuery s m query
  rw [hfirst.answer_eq]
  refine funext fun l => (run_resolveNarrowed s m query l).trans ?_
  rw [hfirst.run]
  cases rewritten? s first with
  | some narrowed => rfl
  | none =>
    refine Eq.trans ?_ (hfirst.run l).symm
    simp [Logger.replay, Logger.fork]

end QueryMethod

/-! Methods of a data access object. -/

theorem determined_convertersInScope (decls : Declarations) (classes : List String) :
    Determined (convertersInScope decls classes) :=
  ⟨_, _, finds_convertersInScope decls classes⟩

namespace ResolvedMethod

theorem exact_resolveKind (s : Setting) (dao : String) (m : Schema.Method) :
    Exact (fun r => r.name = m.name) (resolveKind s dao m) := by
  unfold resolveKind
  split
  · exact (EntityMethod.exact_resolve ..).map fun _ => id
  · split
    · exact (TransactionMethod.exact_resolve ..).map fun _ => id
    · exact (QueryMethod.exact_resolve ..).map fun _ => id

theorem name_write (r : ResolvedMethod) (c : ClassMembers) : (r.write.run c).1.name = r.name := by
  cases r <;> rfl

theorem names_write (rs : List ResolvedMethod) (c : ClassMembers) :
    ((rs.mapM write).run c).1.map Code.Method.name = rs.map name := by
  induction rs generalizing c with
  | nil => rfl
  | cons r rs ih =>
    have hrun : (((r :: rs).mapM write).run c).1 =
        (r.write.run c).1 :: ((rs.mapM write).run (r.write.run c).2).1 := by
      rw [List.mapM_cons]
      rfl
    rw [hrun, List.map_cons, List.map_cons, name_write, ih]

/-- What is known of resolving a method: it answers exactly when nothing is found against it, and all
that is found carries the anchor of the method. -/
structure Settles (act : Report (Option ResolvedMethod)) (anchor declared : String) : Prop where
  finds : Finds act act.answer fun _ => act.findings
  isSome_iff : act.answer.isSome ↔ act.findings.errors = []
  anchor_eq : ∀ d ∈ act.findings, d.anchor = some anchor
  name_eq : ∀ r ∈ act.answer, r.name = declared

theorem settles_resolve (s : Setting) (dao : String) (m : Schema.Method) :
    Settles (resolve s dao m) (dao ++ "::" ++ m.name) m.name := by
  obtain ⟨o, log, h, hname, hiff⟩ := exact_resolveKind s dao m
  have hmethod := (h.suppressing (suppressedBy m.suppressWarnings)).anchored
    (some (dao ++ "::" ++ m.name))
  have hanswer : (resolve s dao m).answer = o := hmethod.answer_eq
  have hfindings : (resolve s dao m).findings = _ := hmethod.findings_eq
  constructor
  · exact hmethod.settled
  · simp only [hanswer, hfindings, hiff, Log.errors_without, Log.errors_under, Log.under_eq_nil_iff]
  · intro d hd
    rw [hfindings] at hd
    exact Log.anchor_of_mem_under (Log.mem_of_mem_without hd)
  · rwa [hanswer]

end ResolvedMethod

namespace RoundSetting

/-- The setting that the methods of a data access object are resolved in. -/
def settingOf (s : RoundSetting) (dao : Dao) : Setting :=
  s.forDao (convertersInScope s.decls dao.converters).answer

/-- What resolving a method of a data access object does. -/
def resolving (s : RoundSetting) (dao : Dao) (m : Schema.Method) : Report (Option ResolvedMethod) :=
  ResolvedMethod.resolve (s.settingOf dao) dao.name m

theorem settles_resolving (s : RoundSetting) (dao : Dao) (m : Schema.Method) :
    ResolvedMethod.Settles (s.resolving dao m) (dao.name ++ "::" ++ m.name) m.name :=
  ResolvedMethod.settles_resolve ..

end RoundSetting

theorem methods_writeDao (dao : Dao) (rs : List ResolvedMethod) :
    (writeDao dao rs).methods = rs.map ResolvedMethod.name := ResolvedMethod.names_write rs _

theorem finds_compileDao (s : RoundSetting) (dao : Dao) :
    Finds (compileDao s dao)
      (writeDao dao (dao.methods.filterMap fun m => (s.resolving dao m).answer)) fun _ =>
      ((Report.anchored (some dao.name) (convertersInScope s.decls dao.converters)).findings ++
        dao.methods.flatMap fun m => (s.resolving dao m).findings).without
          (suppressedBy dao.suppressWarnings) := by
  have hmethods := Finds.filterMapM (fun m => (s.settles_resolving dao m).finds) dao.methods
  have hdao := (determined_convertersInScope s.decls dao.converters).finds.bind
    (f := fun converters => writeDao dao <$>
      dao.methods.filterMapM (ResolvedMethod.resolve (s.forDao converters) dao.name))
    (hmethods.map (writeDao dao))
  exact (hdao.suppressing (suppressedBy dao.suppressWarnings)).anchored (some dao.name)

/-- The names of the resolved methods are those of the methods that resolve. -/
theorem names_resolved (s : RoundSetting) (dao : Dao) (ms : List Schema.Method) :
    (ms.filterMap fun m => (s.resolving dao m).answer).map ResolvedMethod.name =
      (ms.filter fun m => (s.resolving dao m).answer.isSome).map (·.name) := by
  induction ms with
  | nil => rfl
  | cons m ms ih =>
    have hname := (s.settles_resolving dao m).name_eq
    cases h : (s.resolving dao m).answer with
    | none => simp [h, ih]
    | some r => simp [h, ih, hname r h]

/-- A method is emitted exactly when nothing was reported against it as an error. What is reported
for a method carries its anchor, a discarded pass leaves nothing behind, and the errors of an object
are those of its converters and of its methods. -/
theorem emitted_iff_no_error (s : RoundSetting) (dao : Dao) :
    (∀ m l, ∃ log, (s.resolving dao m).run l = ((s.resolving dao m).answer, l.replay log) ∧
      ((s.resolving dao m).answer.isSome ↔ log.errors = []) ∧
      ∀ d ∈ log, d.anchor = some (dao.name ++ "::" ++ m.name)) ∧
    (∀ m query, QueryMethod.resolveNarrowed (s.settingOf dao) m query =
      QueryMethod.resolveQuery (s.settingOf dao) m ((QueryMethod.rewritten? (s.settingOf dao)
        (QueryMethod.resolveQuery (s.settingOf dao) m query).answer).getD query)) ∧
    ∀ l, ∃ written log, (compileDao s dao).run l = (written, l.replay log) ∧
      written.methods =
        (dao.methods.filter fun m => (s.resolving dao m).answer.isSome).map (·.name) ∧
      log.errors =
        (Report.anchored (some dao.name)
          (convertersInScope s.decls dao.converters)).findings.errors ++
        dao.methods.flatMap fun m => (s.resolving dao m).findings.errors := by
  refine ⟨fun m l => ?_, fun m query => QueryMethod.resolveNarrowed_eq .., fun l => ?_⟩
  · have hm := s.settles_resolving dao m
    refine ⟨_, hm.finds.run l, ?_, fun d hd => ?_⟩
    · rw [hm.isSome_iff, Log.errors_without]
    · exact hm.anchor_eq d (Log.mem_of_mem_without hd)
  · refine ⟨_, _, (finds_compileDao s dao).run l, ?_, ?_⟩
    · rw [methods_writeDao, names_resolved]
    · simp only [Log.errors_without, Log.errors_append, Log.errors_flatMap]

end DataAccess.Compile
