import DataAccess.Proofs.Compile.Emission
import DataAccess.Proofs.Delivery.Transactions
import DataAccess.Proofs.Statement.EntityRuns

/-!
What an accepted method that writes entities returns. A method is accepted by the kind of the write,
by how many entities there are and by the declared type; its body gathers what that type says.
-/

set_option autoImplicit false

namespace DataAccess

namespace Delivery

/-- The type of what is handed over for a declared type. Only a provider that was added and claims the
type hands over something else at once. -/
def WriteDelivery.HandsOver (writes : List WriteProvider) (declared content : TypeExpr) :
    WriteDelivery → Prop
  | .instant => content = declared ∨ ∃ c, .custom c ∈ writes ∧ c.accepts declared ∧
      content = CustomProvider.content declared
  | .suspending => content = declared
  | .rx type => content = if type.kind = .completable then .unit else declared.singleArg?.getD .unit
  | .listenableFuture => declared.singleArg? = some content

/-- The binder runs the write for a type that it hands over and that the write can return. -/
def WriteBinder.Runs (b : WriteBinder) (writes : List WriteProvider) (declared : TypeExpr)
    (target : WriteTarget) : Prop :=
  ∀ result, b.result = some result → b.delivery.HandsOver writes declared result.returns ∧
    result.target = target ∧ target.returnsAs result.returns

theorem WriteTarget.of_result? {target : WriteTarget} {t : TypeExpr} {result : WriteResult}
    (h : target.result? t = some result) :
    result.returns = t ∧ result.target = target ∧ target.returnsAs result.returns := by
  unfold WriteTarget.result? at h
  split at h
  · obtain rfl := Option.some.inj h
    exact ⟨rfl, rfl, ‹_›⟩
  · cases h

section Providers

variable {writes : List WriteProvider} {t : TypeExpr}

theorem WriteBinder.runs_of {delivery : WriteDelivery} {content : TypeExpr} (target : WriteTarget)
    (h : delivery.HandsOver writes t content) :
    WriteBinder.Runs ⟨delivery, target.result? content⟩ writes t target := by
  intro result hresult
  obtain ⟨rfl, htarget, hreturns⟩ := WriteTarget.of_result? hresult
  exact ⟨h, htarget, hreturns⟩

theorem WriteProvider.runs_provide {p : WriteProvider} {environment : Environment}
    (hp : p = .instant ∨ p ∈ writes ∧ p.claims environment t) (target : WriteTarget) :
    Assures True (p.provide environment t target) (·.Runs writes t target) := by
  unfold WriteProvider.provide
  extract_lets deliver
  have hdeliver : ∀ u, Assures True (deliver u) (·.Runs writes t target) := by
    intro u
    cases p with
    | rx type => exact assures_pure fun _ => WriteBinder.runs_of target rfl
    | listenableFuture =>
      refine assures_pure fun _ result hresult => ?_
      obtain ⟨content, hcontent, hresult⟩ := Option.bind_eq_some_iff.1 hresult
      have hover : WriteDelivery.HandsOver writes t content .listenableFuture := hcontent
      exact WriteBinder.runs_of target hover result hresult
    | instant => exact assures_pure fun _ => WriteBinder.runs_of target (.inl rfl)
    | custom c =>
      obtain h | ⟨hmem, hclaims⟩ := hp
      · cases h
      · exact assures_pure fun _ => WriteBinder.runs_of target (.inr ⟨c, hmem, hclaims, rfl⟩)
  split
  · exact .ite (fun _ => assures_error _ fun u => (hdeliver u).steady) fun _ => hdeliver ()
  · exact hdeliver ()

theorem Providers.runs_writeBinder (providers : Providers) (environment : Environment)
    (target : WriteTarget) :
    Assures True (providers.writeBinder environment t target) (·.Runs providers.writes t target) := by
  refine WriteProvider.runs_provide ?_ target
  cases hfind : providers.writes.find? (·.claims environment t) with
  | none => exact .inl rfl
  | some p =>
    have hclaims := List.find?_some hfind
    exact .inr ⟨List.mem_of_find?_eq_some hfind, hclaims⟩

end Providers

end Delivery

namespace Compile

open Code Delivery Schema Sql Statement

theorem Setting.runs_writeBinder (s : Setting) (m : Schema.Method) (target : WriteTarget) :
    Assures True (s.writeBinder m target) (·.Runs s.providers.writes m.returns target) := by
  unfold Setting.writeBinder
  refine .ite (fun _ => ?_) fun _ => Providers.runs_writeBinder ..
  exact Assures.bind (steady_requireCoroutines s) fun _ =>
    assures_pure fun _ => WriteBinder.runs_of target rfl

namespace EntityMethod

/-- How a method was accepted. -/
structure Accepted (em : EntityMethod) (s : Setting) (m : Schema.Method) (kind : StatementKind) :
    Prop where
  write : em.entityWrite.kind = kind ∧ em.entityWrite.onConflict = m.onConflict
  params : List.Forall₂ (fun q p => (EntityParam.resolve s.store q).Gives p) m.params
    em.entityWrite.params
  runs : em.binder.Runs s.providers.writes m.returns ⟨kind, some (entityParams m.params)⟩
  isSome_result : em.binder.result.isSome

theorem accepted_of_resolve {s : Setting} {m : Schema.Method} {kind : StatementKind} {l : Logger}
    {em : EntityMethod} (h : ((resolve s m kind).run l).1 = some em) : em.Accepted s m kind := by
  refine Assures.of_unlessReported (P := fun o => ∀ em, o = some em → em.Accepted s m kind) ?_ h em
    rfl
  refine .bind (steady_checkDeclaration m kind) fun _ => ?_
  refine .bind (Steady.filterMapM (fun p => steady_entityParam s.store p) _) fun params => ?_
  refine .bind (steady_checkKeys kind params) fun _ => ?_
  refine .bind (steady_writeBinder ..) fun binder => ?_
  refine .ite (fun _ => assures_error _ fun _ => steady_pure _) fun hsome => ?_
  refine assures_pure fun ⟨⟨⟨_, hparams⟩, _⟩, hbinder⟩ em hem => ?_
  obtain rfl := Option.some.inj hem
  have hresult : binder.result.isSome := by simpa [Option.isSome_iff_ne_none] using hsome
  exact ⟨⟨rfl, rfl⟩, Attempt.Tells.of_filterMapM (fun p => tells_entityParam s.store p) hparams,
    (s.runs_writeBinder m _).holds trivial binder hbinder, hresult⟩

end EntityMethod

/-- The types that a write of entities can return. No write inserts and returns a count. -/
theorem EntityMethod.returnsAs_cases {kind : StatementKind} {qs : List Param} {t : TypeExpr}
    (h : WriteTarget.returnsAs ⟨kind, some (entityParams qs)⟩ t) :
    t.isUnit ∨
    kind = .insert ∧ (∃ q, qs = [q] ∧ q.type.isVec = false) ∧ t.primitive? = some .i64 ∨
    kind = .insert ∧ (∃ q, qs = [q] ∧ q.type.isVec = true) ∧
      t.isVec ∧ t.args.head?.bind TypeExpr.primitive? = some .i64 ∨
    kind ≠ .insert ∧ t.primitive? = some .i32 := by
  simp only [WriteTarget.returnsAs, Bool.and_eq_true, Bool.or_eq_true] at h
  obtain ⟨-, hunit | h⟩ := h
  · exact .inl hunit
  · by_cases hkind : kind = .insert
    · subst hkind
      match qs with
      | [q] =>
        cases hvec : q.type.isVec with
        | false => exact .inr (.inl ⟨rfl, ⟨q, rfl, hvec⟩, by simpa [entityParams, hvec] using h⟩)
        | true =>
          exact .inr (.inr (.inl ⟨rfl, ⟨q, rfl, hvec⟩, by simpa [entityParams, hvec] using h⟩))
      | [] | _ :: _ :: _ => simp [entityParams] at h
    · refine .inr (.inr (.inr ⟨hkind, ?_⟩))
      cases kind <;> simp_all

/-- What is handed over for some executions, by the type that is declared for it. -/
inductive Returned {V : Type} (db : Database V) (declared : TypeExpr) (done : List (Execution V)) :
    V → Prop
  | unit (htype : declared.isUnit) (hcalls : ∀ x ∈ done, x.call = .plain) :
    Returned db declared done db.unit
  | rowId {x : Execution V} (htype : declared.primitive? = some .i64) (hdone : done = [x])
    (hcall : x.call = .insert) : Returned db declared done (db.answer [x])
  | rowIds (htype : declared.isVec ∧ declared.args.head?.bind TypeExpr.primitive? = some .i64)
    (hcalls : ∀ x ∈ done, x.call = .insert) :
    Returned db declared done ((db.answers done).foldl db.push db.noRows)
  | affected (htype : declared.primitive? = some .i32)
    (hcalls : ∀ x ∈ done, x.call = .updateDelete) :
    Returned db declared done ((db.answers done).foldl db.add db.zero)

section Returns

variable {store : Convert.Store} {qs : List Param} {w : EntityWrite} {r : WriteResult} {t : Naming}

/-- The elements of a parameter are bound one by one exactly if a vector is declared for it. -/
theorem items_of_gives
    (hparams : List.Forall₂ (fun q p => (EntityParam.resolve store q).Gives p) qs w.params) :
    List.Forall₂ (fun q e => e.item.isSome = q.type.isVec) qs (w.body r t).entities := by
  have hdrafts := w.drafts_entities r t
  generalize (w.body r t).entities = es at hdrafts ⊢
  generalize w.params = ps at hparams hdrafts
  induction hparams generalizing es with
  | nil =>
    cases hdrafts
    exact .nil
  | cons hgives _ ih =>
    cases hdrafts with
    | cons hfirst hrest =>
      obtain ⟨entity, shape, hresolved⟩ := EntityParam.resolvedFrom_of_gives hgives
      exact .cons (hfirst.isSome_item.trans hresolved.isCollection) (ih _ hrest)

theorem only_of_items {q : Param} {es : List EntityDraft}
    (h : List.Forall₂ (fun q e => e.item.isSome = q.type.isVec) [q] es) :
    ∃ e, es = [e] ∧ e.item.isSome = q.type.isVec := by
  obtain ⟨e, rest, he, hrest, rfl⟩ := List.forall₂_cons_left_iff.1 h
  cases hrest
  exact ⟨e, rfl, he⟩

section Accepted

variable (hparams : List.Forall₂ (fun q p => (EntityParam.resolve store q).Gives p) qs w.params)
  (hreturns : WriteTarget.returnsAs ⟨r.kind, some (EntityMethod.entityParams qs)⟩ r.returns)
include hparams hreturns

/-- What is gathered is told by the type that was accepted. -/
theorem gathering_of_returnsAs :
    r.returns.isUnit ∧ (w.body r t).gathering = .nothing ∨
    r.execute = .insert ∧ r.returns.primitive? = some .i64 ∧
      (∃ x, (w.body r t).gathering = .only x) ∨
    r.execute = .insert ∧
      (r.returns.isVec ∧ r.returns.args.head?.bind TypeExpr.primitive? = some .i64) ∧
      (∃ x param, (w.body r t).gathering = .rows x param) ∨
    r.kind ≠ .insert ∧ r.execute = .updateDelete ∧ r.returns.primitive? = some .i32 ∧
      (∃ x, (w.body r t).gathering = .sum x) := by
  have hitems := items_of_gives (r := r) (t := t) hparams
  obtain ⟨outcome, -, hgathering⟩ := w.gathering_body r t
  by_cases hunit : r.returns.isUnit
  · exact .inl ⟨hunit, hgathering.trans (if_pos hunit)⟩
  rcases EntityMethod.returnsAs_cases hreturns with
    h | ⟨hkind, ⟨q, rfl, hone⟩, htype⟩ | ⟨hkind, ⟨q, rfl, hvec⟩, htype⟩ | ⟨hkind, htype⟩
  · exact absurd h hunit
  · obtain ⟨e, hes, hitem⟩ := only_of_items hitems
    rw [hone, Option.isSome_eq_false_iff] at hitem
    refine .inr (.inl ⟨by simp [WriteResult.execute, hunit, hkind], htype, outcome, ?_⟩)
    simp [hgathering, WriteResult.gathering, hunit, hkind, hes, hitem]
  · obtain ⟨e, hes, hitem⟩ := only_of_items hitems
    obtain ⟨item, hitem⟩ := Option.isSome_iff_exists.1 (hitem.trans hvec)
    refine .inr (.inr (.inl ⟨by simp [WriteResult.execute, hunit, hkind], htype, outcome, e.param,
      ?_⟩))
    simp [hgathering, WriteResult.gathering, hunit, hkind, hes, hitem]
  · refine .inr (.inr (.inr ⟨hkind, by simp [WriteResult.execute, hunit, hkind], htype, outcome,
      ?_⟩))
    simp [hgathering, WriteResult.gathering, hunit, hkind]

/-- No insert reaches the sum. -/
theorem not_sum_of_returnsAs (hinsert : r.kind = .insert) (x : String) :
    (w.body r t).gathering ≠ .sum x := by
  rcases gathering_of_returnsAs (t := t) hparams hreturns with
    ⟨-, hg⟩ | ⟨-, -, y, hg⟩ | ⟨-, -, y, param, hg⟩ | ⟨hkind, -⟩
  · exact hg ▸ nofun
  · exact hg ▸ nofun
  · exact hg ▸ nofun
  · exact absurd hinsert hkind

theorem returned_of_returnsAs {V : Type} (db : Database V) (arguments : String → V) :
    Returned db r.returns (w.done r t db arguments)
      ((w.body r t).gathering.result db (db.answers (w.done r t db arguments))) := by
  have hcalls : ∀ {call}, r.execute = call → ∀ x ∈ w.done r t db arguments, x.call = call :=
    fun hcall x hx => (w.call_of_mem_done r t hx).trans hcall
  rcases gathering_of_returnsAs (t := t) hparams hreturns with
    ⟨hunit, hg⟩ | ⟨hcall, htype, x, hg⟩ | ⟨hcall, htype, x, param, hg⟩ | ⟨-, hcall, htype, x, hg⟩
  · rw [hg]
    exact .unit hunit (hcalls (if_pos hunit))
  · obtain ⟨only, hdone⟩ := List.length_eq_one_iff.1 (w.length_done_of_only r t db arguments hg)
    have hinsert : only.call = .insert := hcalls hcall only (hdone ▸ List.mem_singleton_self only)
    rw [hg, hdone]
    exact .rowId htype rfl hinsert
  · rw [hg]
    exact .rowIds htype (hcalls hcall)
  · rw [hg]
    exact .affected htype (hcalls hcall)

end Accepted

end Returns

theorem self_or_given {object : String} (h : IsObject object) :
    object = "self" ∨ IsGiven ["this"] object :=
  h.imp_right fun ⟨n, hn⟩ => ⟨"this", List.mem_cons_self, n, hn⟩

namespace EntityMethod

/-- An accepted method is written around a body that returns what is declared: it executes once for
each entity, in the order of the parameters and of their elements, and what is bound then is that
entity. No insert sums what is affected. There is no result exactly where a local variable hides a
parameter. -/
theorem returns_declared {s : Setting} {m : Schema.Method} {kind : StatementKind} {l : Logger}
    {em : EntityMethod} (h : ((resolve s m kind).run l).1 = some em) (c : ClassMembers) :
    ∃ (r : WriteResult) (t : Naming),
      em.binder.result = some r ∧
      em.binder.delivery.HandsOver s.providers.writes m.returns r.returns ∧
      em.entityWrite.kind = kind ∧ em.entityWrite.onConflict = m.onConflict ∧
      List.Forall₂ (fun q p => (EntityParam.resolve s.store q).Gives p) m.params
        em.entityWrite.params ∧
      (HoldStatements c → ∀ p ∈ em.entityWrite.params,
        statementField (EntityWrite.fieldFor (em.entityWrite.draft t).naming.members
          (em.entityWrite.textOf p)) (em.entityWrite.textOf p) ∈
            (em.entityWrite.draft t).naming.members.fields) ∧
      Holds (em.entityWrite.body r t).lines (em.write.run c).1.body.lines ∧
      (kind = .insert → ∀ x, (em.entityWrite.body r t).gathering ≠ .sum x) ∧
      ((∀ q ∈ m.params, ¬IsUnderscored q.name ∧ q.name ≠ "self") →
        (em.entityWrite.body r t).unshadowed) ∧
      ∀ (V : Type) (db : Database V) (arguments : String → V),
        ∃ value, Returned db r.returns (em.entityWrite.done r t db arguments) value ∧
          (em.entityWrite.body r t).exec db arguments =
            if (em.entityWrite.body r t).unshadowed then
              some (em.entityWrite.done r t db arguments, value)
            else none := by
  obtain ⟨⟨hkind, hconflict⟩, hparams, hruns, hsome⟩ := accepted_of_resolve h
  obtain ⟨r, hr⟩ := Option.isSome_iff_exists.1 hsome
  obtain ⟨hover, htarget, hreturns⟩ := hruns r hr
  obtain rfl : kind = r.kind := by rw [WriteResult.kind, htarget]
  obtain ⟨name, returns, w, delivery, result⟩ := em
  obtain rfl : result = some r := hr
  obtain ⟨code, hlines, -, object, block, hobject, ⟨t, ht, rfl, rfl⟩, hholds⟩ :=
    emits_writeBinder (fun object _ => emits_body w r object) delivery { members := c } 0 rfl rfl
  have hbody : ((write ⟨name, returns, w, delivery, some r⟩).run c).1.body.lines = code := by
    refine (congrArg Block.lines hlines).trans ?_
    simp [sunken]
  have hobject := self_or_given hobject
  have hdotless : '.' ∉ t.receiver.toList := by
    obtain hself | hgiven := hobject
    · rw [hself]
      decide
    · exact hgiven.dot_not_mem (by decide)
  obtain rfl : t.members = c := ht
  refine ⟨r, t, rfl, hover, hkind, hconflict, hparams, fun hc p hp => w.statementField_mem t hc hp,
    hbody ▸ hholds, not_sum_of_returnsAs hparams hreturns, fun hnames => ?_, fun V db arguments =>
      ⟨_, returned_of_returnsAs hparams hreturns db arguments,
        w.exec_body r t db arguments hdotless⟩⟩
  refine w.unshadowed_of_names r t (hobject.imp_right IsGiven.isUnderscored) fun p hp => ?_
  obtain ⟨q, hq, hgives⟩ := Rows.exists_of_forall₂_right hparams hp
  obtain ⟨entity, shape, hresolved⟩ := EntityParam.resolvedFrom_of_gives hgives
  rw [hresolved.name]
  exact hnames q hq

/-- An update of one member and several others that returns how many rows it affects. -/
def updateMembers : Schema.Method where
  name := "update"
  params := [EntityWrite.memberParam "captain" false, EntityWrite.memberParam "others" true]
  returns := .simple "i32"

theorem returns_declared_updateMembers :
    ∃ em, ((resolve { store := EntityWrite.memberStore, providers := {} } updateMembers .update).run
        {}).1 = some em ∧
      em.entityWrite.params = EntityWrite.memberUpdate.params ∧
      ∃ r t, Holds (em.entityWrite.body r t).lines
          (em.write.run { className := "MemberDaoImpl" }).1.body.lines ∧
        ∀ (V : Type) (db : Database V) (arguments : String → V),
          (em.entityWrite.body r t).exec db arguments =
            some (em.entityWrite.done r t db arguments,
              (db.answers (em.entityWrite.done r t db arguments)).foldl db.add db.zero) := by
  let setting : Setting := { store := EntityWrite.memberStore, providers := {} }
  have haccepted : ((resolve setting updateMembers .update).run {}).1.map
      (fun em => (em.entityWrite.params, em.binder.result.map (·.returns))) =
        some (EntityWrite.memberUpdate.params, some (.simple "i32")) := by decide +kernel
  obtain ⟨em, hem, hfacts⟩ := Option.map_eq_some_iff.1 haccepted
  obtain ⟨hparams, hresult⟩ := Prod.mk.inj hfacts
  obtain ⟨r, t, hr, -, -, -, -, -, hholds, -, hvisible, hruns⟩ :=
    returns_declared hem { className := "MemberDaoImpl" }
  have htype : r.returns = .simple "i32" := by
    rw [hr] at hresult
    exact Option.some.inj hresult
  refine ⟨em, hem, hparams, r, t, hholds, fun V db arguments => ?_⟩
  obtain ⟨value, hvalue, hexec⟩ := hruns V db arguments
  rw [hexec, if_pos (hvisible (by decide))]
  rw [htype] at hvalue
  cases hvalue with
  | unit h => exact absurd h (by decide)
  | rowId h => exact absurd h (by decide)
  | rowIds h => exact absurd h.1 (by decide)
  | affected => rfl

end EntityMethod

end Compile

end DataAccess
