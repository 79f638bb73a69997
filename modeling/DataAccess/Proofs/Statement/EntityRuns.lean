import DataAccess.Proofs.Statement.EntityBody
import DataAccess.Proofs.Statement.EntityPreparation
import DataAccess.Proofs.Statement.ParameterNames

/-!
What a body that writes entities does: it executes once for each entity, in order, and what is bound
then are the values of that entity. It returns what it gathered, unless a local variable hides a
parameter.
-/

set_option autoImplicit false

namespace DataAccess.Statement

open Code Delivery
open DataAccess.Convert

/-- The names that a gathering asks for. -/
def outcomeWishes : List String := ["result", "total"]

section Gathering

variable {V : Type} (db : Database V) {g : Gathering} {answers : List V} {ls ls' : Locals V}

namespace Gathering

def outcome? : Gathering → Option String
  | nothing => none
  | only outcome | rows outcome _ | sum outcome => some outcome

/-- What is returned if the executions returned these values. -/
def result (answers : List V) : Gathering → V
  | nothing => db.unit
  | only _ => answers.getLastD db.unit
  | rows _ _ => answers.foldl db.push db.noRows
  | sum _ => answers.foldl db.add db.zero

/-- The values so far are where they are gathered. -/
def Holds (g : Gathering) (answers : List V) (ls : Locals V) : Prop :=
  match g with
  | nothing => True
  | only outcome => answers ≠ [] → ls.value? outcome = some (g.result db answers)
  | rows outcome _ | sum outcome => ls.value? outcome = some (g.result db answers)

theorem mem_of_outcome? {x : String} (h : x ∈ g.declares ++ g.adds) : g.outcome? = some x := by
  cases g <;> simp_all [declares, adds, outcome?]

variable {db}

theorem Holds.congr (h : g.Holds db answers ls)
    (hsame : ∀ x, g.outcome? = some x → ls'.lookup x = ls.lookup x) : g.Holds db answers ls' := by
  have hvalue : ∀ x, g.outcome? = some x → ls'.value? x = ls.value? x := fun x hx => by
    rw [Locals.value?, Locals.value?, hsame x hx]
  cases g with
  | nothing => trivial
  | only outcome => exact fun hne => (hvalue outcome rfl).trans (h hne)
  | rows outcome | sum outcome => exact (hvalue outcome rfl).trans h

/-- One more value is gathered, and nothing else changes. -/
theorem Holds.keep (h : g.Holds db answers ls) (v : V) :
    ∃ ls', g.keep db v ls = some ls' ∧ g.Holds db (answers ++ [v]) ls' ∧
      ls'.names = g.adds ++ ls.names ∧ ∀ n, g.outcome? ≠ some n → ls'.lookup n = ls.lookup n := by
  have hassign : ∀ {x w} (w' : V), ls.value? x = some w →
      (ls.assign x (.value w')).value? x = some w' := by
    intro x w w' hx
    unfold Locals.value? at hx
    split at hx
    · rw [Locals.value?, Locals.lookup_assign_self (Locals.mem_names_of_lookup ‹_›)]
    · cases hx
  cases g with
  | nothing => exact ⟨ls, rfl, trivial, rfl, fun _ _ => rfl⟩
  | only outcome =>
    refine ⟨(outcome, .value v) :: ls, rfl, fun _ => ?_, rfl, fun n hn => ?_⟩
    · simp [Locals.value?, result]
    · exact Locals.lookup_cons_ne fun he => hn (he ▸ rfl)
  | rows outcome param =>
    refine ⟨ls.assign outcome (.value (db.push (result db answers (.rows outcome param)) v)), ?_,
      ?_, Locals.names_assign, fun n hn => Locals.lookup_assign_ne fun he => hn (he ▸ rfl)⟩
    · rw [Gathering.keep, show ls.value? outcome = _ from h]
      rfl
    · refine (hassign _ h).trans ?_
      simp [result]
  | sum outcome =>
    refine ⟨ls.assign outcome (.value (db.add (result db answers (.sum outcome)) v)), ?_, ?_,
      Locals.names_assign, fun n hn => Locals.lookup_assign_ne fun he => hn (he ▸ rfl)⟩
    · rw [Gathering.keep, show ls.value? outcome = _ from h]
      rfl
    · refine (hassign _ h).trans ?_
      simp [result]

/-- The start of a gathering, if it finds the parameter that it asks for. -/
theorem exec_begin (db : Database V) (g : Gathering) (arguments : String → V)
    (hfound : ∀ x param, g = .rows x param → param ∉ ls.names) :
    ∃ ls', g.begin db arguments ls = some ls' ∧ ls'.names = g.declares ++ ls.names ∧
      g.Holds db [] ls' ∧ ∀ n, g.outcome? ≠ some n → ls'.lookup n = ls.lookup n := by
  have hvalue : ∀ (x : String) (v : V), Locals.value? ((x, .value v) :: ls) x = some v := by
    intro x v
    rw [Locals.value?, List.lookup_cons_self]
  cases g with
  | nothing => exact ⟨ls, rfl, rfl, trivial, fun _ _ => rfl⟩
  | only outcome => exact ⟨ls, rfl, rfl, fun hne => absurd rfl hne, fun _ _ => rfl⟩
  | rows outcome param =>
    have hparam : ls.entity? arguments param = some (arguments param) := by
      rw [Locals.entity?, if_neg (by simpa using hfound outcome param rfl)]
    refine ⟨(outcome, .value db.noRows) :: ls, by rw [begin, hparam]; rfl, rfl, hvalue _ _,
      fun n hn => Locals.lookup_cons_ne fun he => hn (he ▸ rfl)⟩
  | sum outcome =>
    exact ⟨(outcome, .value db.zero) :: ls, rfl, rfl, hvalue _ _,
      fun n hn => Locals.lookup_cons_ne fun he => hn (he ▸ rfl)⟩

theorem exec_begin_hidden {x param : String} (arguments : String → V) (h : param ∈ ls.names) :
    (rows x param).begin db arguments ls = none := by
  rw [begin, Locals.entity?, if_pos (by simpa using h)]
  rfl

theorem Holds.finish (h : g.Holds db answers ls) (hne : ∀ x, g = .only x → answers ≠ []) :
    g.finish db ls = some (g.result db answers) := by
  cases g with
  | nothing => rfl
  | only outcome => exact h (hne outcome rfl)
  | rows outcome | sum outcome => exact h

end Gathering

theorem Database.length_answers (done : List (Execution V)) :
    (db.answers done).length = done.length := by
  simp [answers]

theorem Database.answers_append (done : List (Execution V)) (x : Execution V) :
    db.answers (done ++ [x]) = db.answers done ++ [db.answer (done ++ [x])] := by
  have hne : done.inits ≠ [] := by cases done <;> simp
  simp [answers, List.inits_append, List.tail_append_of_ne_nil hne]

end Gathering

/-- The names of the variables that the binding of an entity leaves alone. -/
def keptWishes : List String := "stmt" :: "item" :: outcomeWishes

theorem fieldOf_value (c : BoundColumn) (owner : String) :
    fieldOf owner (c.value owner) = c.place.display := by
  have hlist : (c.value owner).toList = owner.toList ++ '.' :: c.place.display.toList := by
    simp [BoundColumn.value]
  rw [fieldOf, hlist, ← String.toList_inj, String.toList_ofList, ← String.length_toList]
  simp

namespace EntityWrite

variable {V : Type} (w : EntityWrite) (db : Database V)

/-- What is bound for an entity. -/
def cells (p : EntityParam) (v : V) : List (Cell V) :=
  (p.boundColumns w.kind).map fun c => c.binder.cell db.toRuntime (db.field v c.place.display)

/-- The execution for an entity, of the statement that a field holds. -/
def execution (call : Execute) (field : String) (p : EntityParam) (v : V) : Execution V :=
  ⟨call, .shared field, (w.cells db p v).zipIdx 1⟩

variable {w db} {p : EntityParam} {e : EntityDraft}

theorem Drafts.given_locals (h : w.Drafts p e) {n : String} (hn : n ∈ e.bind.locals) :
    IsGiven conversionWishes n := by
  obtain ⟨t, -, -, hbind⟩ := h.bind
  exact (tidy_draftColumns _ _ _ _).given t n (hbind ▸ hn)

theorem Drafts.not_mem_locals (h : w.Drafts p e) {n : String} (hn : IsGiven keptWishes n) :
    n ∉ e.bind.locals := fun hmem => hn.not_both (h.given_locals hmem) (by decide) (by decide)

/-- The binding of an entity, wherever its fields are found. -/
theorem Drafts.exec_bind (h : w.Drafts p e) (db : Database V) {ls : Locals V} {field : String}
    (v : V) (hdotless : ∀ n ∈ ls.names, '.' ∉ n.toList)
    (hstmt : ls.lookup e.statement = some (.statement { source := .shared field })) :
    ∃ ls', e.bind.exec db.toRuntime (fun read => db.field v (fieldOf e.owner read)) ls = some ls' ∧
      ls'.lookup e.statement = some (.statement ⟨.shared field, (w.cells db p v).zipIdx 1⟩) ∧
      ∀ n, IsGiven keptWishes n → n ≠ e.statement → ls'.lookup n = ls.lookup n := by
  obtain ⟨t, hissued, -, hbind⟩ := h.bind
  have hclear := unshadowed_draftColumns e.statement e.owner 1 (p.boundColumns w.kind) hissued
    hdotless
  obtain ⟨ls', hexec, hbound, hframe⟩ := (bindsColumns_draftColumns e.owner 1
    (p.boundColumns w.kind) hissued).runs hclear hstmt
  refine ⟨ls', hbind ▸ hexec, ?_, fun n hn hne => hframe n ?_ hne⟩
  · rw [hbound]
    simp [Prepared.bindAll, cellsOfColumns, cells, fieldOf_value]
  · exact hbind ▸ h.not_mem_locals hn

variable {g : Gathering} {s : Progress V}

/-- One entity: it is bound, the statement is executed, and what that returns is gathered. -/
theorem Drafts.once (h : w.Drafts p e) (call : Execute) {field : String} {visible : List String}
    (v : V) (houtcome : ∀ x, g.outcome? = some x → IsGiven outcomeWishes x)
    (hclear : (e.bind.owned e.owner).unshadowed visible)
    (hdotless : ∀ n ∈ s.locals.names, '.' ∉ n.toList)
    (hstmt : s.locals.lookup e.statement = some (.statement { source := .shared field }))
    (hgathered : g.Holds db (db.answers s.done) s.locals) :
    ∃ s', e.once db g call visible v s = some s' ∧
      s'.done = s.done ++ [w.execution db call field p v] ∧
      s'.locals.names = g.adds ++ (e.bind.declares ++ s.locals.names) ∧
      (∀ n, IsGiven ["stmt"] n → s'.locals.lookup n = s.locals.lookup n) ∧
      g.Holds db (db.answers s'.done) s'.locals := by
  obtain ⟨bound, hbound, hcells, hframe⟩ := h.exec_bind db v hdotless hstmt
  let after := bound.assign e.statement (.statement { source := .shared field })
  let done := s.done ++ [w.execution db call field p v]
  have hafter : ∀ n, IsGiven keptWishes n → after.lookup n = s.locals.lookup n := by
    intro n hn
    by_cases hne : n = e.statement
    · rw [hne, hstmt]
      exact Locals.lookup_assign_self (Locals.mem_names_of_lookup hcells)
    · exact (Locals.lookup_assign_ne hne).trans (hframe n hn hne)
  have hkept : g.Holds db (db.answers s.done) after := hgathered.congr fun x hx =>
    hafter x ((houtcome x hx).mono (by decide))
  obtain ⟨ls', hkeep, hholds, hnames, hsame⟩ := hkept.keep (db.answer done)
  refine ⟨⟨ls', done⟩, ?_, rfl, ?_, fun n hn => ?_, ?_⟩
  · have hexecute : Progress.execute ⟨bound, s.done⟩ call e.statement = some ⟨after, done⟩ := by
      simp only [Progress.execute, Locals.statement?, hcells]
      rfl
    rw [EntityDraft.once, if_pos hclear, hbound]
    simp only [Option.bind_eq_bind, Option.bind_some, hexecute, hkeep]
    rfl
  · rw [hnames, Locals.names_assign, Program.names_exec hbound]
  · have hne : g.outcome? ≠ some n := fun hx =>
      hn.not_both (houtcome n hx) (by decide) (by decide)
    rw [hsame n hne, hafter n (hn.mono (by decide))]
  · rwa [db.answers_append]

/-- In front of an entity: the visible names, the statements as they were prepared, and what was
gathered so far. -/
structure Ready (db : Database V) (g : Gathering) (prepared : Locals V) (visible : List String)
    (s : Progress V) : Prop where
  names : s.locals.names = visible
  dotless : ∀ n ∈ visible, '.' ∉ n.toList
  statements : ∀ n, IsGiven ["stmt"] n → s.locals.lookup n = prepared.lookup n
  gathered : g.Holds db (db.answers s.done) s.locals

theorem Ready.dotless_names {prepared : Locals V} {visible : List String}
    (h : Ready db g prepared visible s) : ∀ n ∈ s.locals.names, '.' ∉ n.toList := by
  rw [h.names]
  exact h.dotless

variable {prepared : Locals V} {visible : List String} {field : String} (call : Execute)
  (arguments : String → V)

/-- The entities that a parameter holds. -/
def held (db : Database V) (p : EntityParam) (v : V) : List V :=
  if p.isCollection then db.items v else [v]

/-- What an element makes visible hides neither statements nor what is gathered. -/
theorem Drafts.not_mem_inside (h : w.Drafts p e) {item n : String} (hitem : e.item = some item)
    (hn : IsGiven ("stmt" :: outcomeWishes) n) : n ∉ e.bind.declares ++ [item] := by
  intro hmem
  rcases List.mem_append.1 hmem with hmem | hmem
  · exact h.not_mem_locals (hn.mono (by decide)) (Program.mem_locals_of_mem_declares hmem)
  · obtain rfl := List.mem_singleton.1 hmem
    exact hn.not_both (h.item_given n hitem) (by decide) (by decide)

theorem Drafts.dotless_declares (h : w.Drafts p e) : ∀ n ∈ e.bind.declares, '.' ∉ n.toList :=
  fun _ hn => (h.given_locals (Program.mem_locals_of_mem_declares hn)).dot_not_mem (by decide)

section Steps

variable (h : w.Drafts p e) (houtcome : ∀ x, g.outcome? = some x → IsGiven outcomeWishes x)
  (hstmt : prepared.lookup e.statement = some (.statement { source := .shared field }))
  (hready : Ready db g prepared visible s)
include h houtcome hstmt hready

/-- One element of a parameter, which is visible only there. -/
theorem Ready.once_item {item : String} (hitem : e.item = some item) (hadds : g.adds = []) (v : V) :
    ∃ inner, e.once db g call [] v { s with locals := (item, .value v) :: s.locals } = some inner ∧
      inner.done = s.done ++ [w.execution db call field p v] ∧
      Ready db g prepared visible { inner with locals := s.locals.leave inner.locals } := by
  let entered : Progress V := { s with locals := (item, .value v) :: s.locals }
  have hgiven := h.item_given item hitem
  have houter : ∀ n, IsGiven ("stmt" :: outcomeWishes) n →
      entered.locals.lookup n = s.locals.lookup n := by
    intro n hn
    refine Locals.lookup_cons_ne fun he => h.not_mem_inside hitem hn ?_
    simp [he]
  have hclear : (e.bind.owned e.owner).unshadowed [] := by
    have howner : e.owner = item := by rw [EntityDraft.owner, hitem, Option.getD_some]
    rw [howner]
    exact Program.unshadowed_owned (h.not_mem_locals (hgiven.mono (by decide))) List.not_mem_nil
  have hdotless : ∀ n ∈ entered.locals.names, '.' ∉ n.toList := by
    exact List.forall_mem_cons.2 ⟨hgiven.dot_not_mem (by decide), hready.dotless_names⟩
  have hstatement : entered.locals.lookup e.statement =
      some (.statement { source := .shared field }) := by
    rw [houter _ (h.given.mono (by decide)), hready.statements _ h.given, hstmt]
  have hgathered : g.Holds db (db.answers entered.done) entered.locals :=
    hready.gathered.congr fun x hx => houter x ((houtcome x hx).mono (by decide))
  obtain ⟨inner, honce, hdone, hnames, hstatements, hholds⟩ :=
    h.once call v houtcome hclear hdotless hstatement hgathered
  have hinside : inner.locals.names = (e.bind.declares ++ [item]) ++ s.locals.names := by
    rw [hnames, hadds]
    simp [entered, Locals.names]
  have hleave : ∀ n, IsGiven ("stmt" :: outcomeWishes) n →
      (s.locals.leave inner.locals).lookup n = inner.locals.lookup n :=
    fun n hn => Locals.lookup_leave hinside (h.not_mem_inside hitem hn)
  refine ⟨inner, honce, hdone, (Locals.names_leave hinside).trans hready.names, hready.dotless,
    fun n hn => ?_, hholds.congr fun x hx => hleave x ((houtcome x hx).mono (by decide))⟩
  have hn' : IsGiven ("stmt" :: outcomeWishes) n := hn.mono (by decide)
  exact (hleave n hn').trans ((hstatements n hn).trans ((houter n hn').trans
    (hready.statements n hn)))

/-- All elements of a parameter, one after the other. -/
theorem Ready.exec_items {item : String} (hitem : e.item = some item) (hadds : g.adds = [])
    (vs : List V) :
    ∃ s', (vs.foldlM (fun s w => do
        let inner ← e.once db g call [] w { s with locals := (item, .value w) :: s.locals }
        return { inner with locals := s.locals.leave inner.locals }) s) = some s' ∧
      s'.done = s.done ++ vs.map (w.execution db call field p) ∧
      Ready db g prepared visible s' := by
  induction vs generalizing s with
  | nil => exact ⟨s, rfl, (List.append_nil _).symm, hready⟩
  | cons v vs ih =>
    obtain ⟨inner, honce, hdone, hinner⟩ :=
      hready.once_item call h houtcome hstmt hitem hadds v
    obtain ⟨s', hrest, hdone', hready'⟩ := ih hinner
    refine ⟨s', ?_, ?_, hready'⟩
    · rw [List.foldlM_cons, honce]
      exact hrest
    · rw [hdone', hdone, List.map_cons, List.append_assoc, List.singleton_append]

/-- A parameter: one entity, or all elements. -/
theorem Ready.exec_entity (hadds : e.item.isSome → g.adds = []) (hclear : e.isClear visible) :
    ∃ s', e.exec db arguments g call s = some s' ∧
      s'.done = s.done ++ (held db p (arguments p.name)).map (w.execution db call field p) ∧
      Ready db g prepared (e.behind g visible) s' := by
  have hcollection := h.isSome_item
  unfold EntityDraft.isClear at hclear
  unfold EntityDraft.exec EntityDraft.behind held
  rw [← h.param, ← hcollection]
  cases hitem : e.item with
  | some item =>
    rw [hitem] at hclear
    have hfound : s.locals.entity? arguments e.param = some (arguments e.param) := by
      rw [Locals.entity?, hready.names, if_neg (by simpa using hclear)]
    simp only [hfound, Option.bind_eq_bind, Option.bind_some, Option.isSome_some, if_true]
    exact hready.exec_items call h houtcome hstmt hitem (hadds (by rw [hitem]; rfl)) _
  | none =>
    rw [hitem] at hclear
    have howner : e.owner = e.param := by rw [EntityDraft.owner, hitem, Option.getD_none]
    have hfound : (e.bind.owned e.owner).unshadowed s.locals.names := by
      rwa [howner, hready.names]
    obtain ⟨s', honce, hdone, hnames, hstatements, hholds⟩ := h.once call (arguments e.param)
      houtcome hfound hready.dotless_names ((hready.statements _ h.given).trans hstmt) hready.gathered
    refine ⟨s', honce, hdone, hnames.trans ?_, ?_, ?_, hholds⟩
    · rw [hready.names]
    · intro n hn
      simp only [List.mem_append] at hn
      obtain hn | hn | hn := hn
      · have hx := Gathering.mem_of_outcome? (List.mem_append_right _ hn)
        exact (houtcome n hx).dot_not_mem (by decide)
      · exact h.dotless_declares n hn
      · exact hready.dotless n hn
    · exact fun n hn => (hstatements n hn).trans (hready.statements n hn)

omit houtcome hstmt h in
/-- There is no result where a parameter is hidden. -/
theorem Ready.exec_hidden (hhidden : e.isClear visible = false) :
    e.exec db arguments g call s = none := by
  unfold EntityDraft.isClear at hhidden
  unfold EntityDraft.exec
  cases hitem : e.item with
  | some item =>
    rw [hitem] at hhidden
    have hlost : s.locals.entity? arguments e.param = none := by
      rw [Locals.entity?, hready.names, if_pos (by simpa using hhidden)]
    simp [hlost]
  | none =>
    rw [hitem] at hhidden
    have howner : e.owner = e.param := by rw [EntityDraft.owner, hitem, Option.getD_none]
    simp only
    rw [EntityDraft.once, howner, hready.names, if_neg (by simp [hhidden])]

end Steps

/-- The executions for all entities: parameter by parameter and element by element. -/
def executions (db : Database V) (arguments : String → V) (call : Execute)
    (field : EntityParam → String) (ps : List EntityParam) : List (Execution V) :=
  ps.flatMap fun p => (held db p (arguments p.name)).map (w.execution db call (field p) p)

/-- The entities of all parameters, if none is hidden. -/
theorem Ready.exec_entities {field : EntityParam → String}
    (houtcome : ∀ x, g.outcome? = some x → IsGiven outcomeWishes x) {ps : List EntityParam}
    {es : List EntityDraft}
    (hes : List.Forall₂ (fun p e => w.Drafts p e ∧
      prepared.lookup e.statement = some (.statement { source := .shared (field p) })) ps es)
    (hadds : ∀ e ∈ es, e.item.isSome → g.adds = []) (hready : Ready db g prepared visible s) :
    (areClear g visible es = true → ∃ s',
      es.foldlM (fun s e => e.exec db arguments g call s) s = some s' ∧
      s'.done = s.done ++ w.executions db arguments call field ps ∧
      g.Holds db (db.answers s'.done) s'.locals) ∧
    (areClear g visible es = false →
      es.foldlM (fun s e => e.exec db arguments g call s) s = none) := by
  induction hes generalizing s visible with
  | nil => exact ⟨fun _ => ⟨s, rfl, (List.append_nil _).symm, hready.gathered⟩, nofun⟩
  | @cons p e ps es hpe _ ih =>
    obtain ⟨he, hstmt⟩ := hpe
    obtain ⟨hfirst, hrest⟩ := List.forall_mem_cons.1 hadds
    rw [areClear, List.foldlM_cons]
    cases hclear : e.isClear visible with
    | false =>
      rw [hready.exec_hidden call arguments hclear]
      exact ⟨nofun, fun _ => rfl⟩
    | true =>
      obtain ⟨s₁, hexec, hdone, hready₁⟩ :=
        hready.exec_entity call arguments he houtcome hstmt hfirst hclear
      obtain ⟨hruns, hfails⟩ := ih hrest hready₁
      rw [hexec, Bool.true_and]
      refine ⟨fun hvisible => ?_, hfails⟩
      obtain ⟨s', hexec', hdone', hholds⟩ := hruns hvisible
      refine ⟨s', hexec', ?_, hholds⟩
      rw [hdone', hdone, List.append_assoc]
      rfl

section Body

variable (w : EntityWrite) (r : WriteResult) (t : Naming)

/-- What the body gathers, with the name that it was given for the outcome. -/
theorem gathering_body : ∃ outcome, (¬r.returns.isUnit → IsGiven outcomeWishes outcome) ∧
    (w.body r t).gathering = r.gathering outcome (w.body r t).entities := by
  let x := Draft.fresh "transaction" (w.draft t).naming
  refine ⟨(r.draftOutcome x.naming).value, fun hunit => ?_, rfl⟩
  rw [WriteResult.draftOutcome, if_neg hunit]
  refine IsGiven.fresh ?_ _
  split <;> decide

/-- Only one entity has an outcome of its own, and rows are gathered for the elements of the only
parameter. -/
theorem gathering_body_cases :
    (w.body r t).gathering = .nothing ∨ ∃ outcome, IsGiven outcomeWishes outcome ∧
      ((∃ e, (w.body r t).entities = [e] ∧ e.item = none ∧
          (w.body r t).gathering = .only outcome) ∨
        (∃ e, (w.body r t).entities = [e] ∧ e.item.isSome ∧
          (w.body r t).gathering = .rows outcome e.param) ∨
        (w.body r t).gathering = .sum outcome) := by
  obtain ⟨outcome, hgiven, hgathering⟩ := w.gathering_body r t
  rw [hgathering]
  exact (r.gathering_cases outcome _).imp_right fun ⟨hunit, h⟩ => ⟨outcome, hgiven hunit, h⟩

/-- Every parameter has its draft. -/
theorem drafts_entities : List.Forall₂ w.Drafts w.params (w.body r t).entities := by
  obtain ⟨-, -, hparams⟩ :=
    w.exec_draftParams counting (fun _ => 0) (atHand_nil t []) w.params
  exact hparams.imp fun _ _ h => h.1

theorem given_outcome {x : String} (hx : (w.body r t).gathering.outcome? = some x) :
    IsGiven outcomeWishes x := by
  rcases w.gathering_body_cases r t with
    hg | ⟨outcome, hgiven, ⟨e, -, -, hg⟩ | ⟨e, -, -, hg⟩ | hg⟩
  · rw [hg] at hx
    cases hx
  all_goals
    rw [hg] at hx
    exact Option.some.inj hx ▸ hgiven

theorem given_transaction : IsGiven ["transaction"] (w.body r t).transaction :=
  IsGiven.fresh List.mem_cons_self _

theorem entities_of_only {x : String} (h : (w.body r t).gathering = .only x) :
    ∃ e, (w.body r t).entities = [e] ∧ e.item = none := by
  rcases w.gathering_body_cases r t with
    hg | ⟨outcome, -, ⟨e, hes, hitem, -⟩ | ⟨e, -, -, hg⟩ | hg⟩
  · cases hg.symm.trans h
  · exact ⟨e, hes, hitem⟩
  · cases hg.symm.trans h
  · cases hg.symm.trans h

theorem entities_of_rows {x param : String} (h : (w.body r t).gathering = .rows x param) :
    ∃ e, (w.body r t).entities = [e] ∧ e.item.isSome ∧ e.param = param := by
  rcases w.gathering_body_cases r t with
    hg | ⟨outcome, -, ⟨e, -, -, hg⟩ | ⟨e, hes, hitem, hg⟩ | hg⟩
  · cases hg.symm.trans h
  · cases hg.symm.trans h
  · cases hg.symm.trans h
    exact ⟨e, hes, hitem, rfl⟩
  · cases hg.symm.trans h

theorem adds_of_item {e : EntityDraft} (he : e ∈ (w.body r t).entities) (hitem : e.item.isSome) :
    (w.body r t).gathering.adds = [] := by
  cases hg : (w.body r t).gathering with
  | only x =>
    obtain ⟨e', hes, hnone⟩ := w.entities_of_only r t hg
    rw [hes, List.mem_singleton] at he
    rw [he, hnone] at hitem
    cases hitem
  | nothing | rows | sum => rfl

/-- The names that are visible in front of the first entity. -/
theorem given_front {n : String} (hn : n ∈ (w.body r t).front) :
    IsGiven ("stmt" :: "transaction" :: outcomeWishes) n ∨ n = t.receiver ∨ n = "self" := by
  have hpreparation : (w.body r t).preparation = (w.draftParams [] w.params t).program :=
    Program.append_done _
  have hobject : (w.body r t).object = t.receiver := receiver_draft w t
  simp only [EntityBody.front, EntityBody.opened, EntityBody.outer, List.mem_append,
    List.mem_cons, List.not_mem_nil, or_false, hobject] at hn
  obtain hn | rfl | hn | hn := hn
  · have hx := Gathering.mem_of_outcome? (List.mem_append_left _ hn)
    exact .inl ((w.given_outcome r t hx).mono (by decide))
  · exact .inl ((w.given_transaction r t).mono (by decide))
  · have hlocals := Program.mem_locals_of_mem_declares hn
    rw [hpreparation] at hlocals
    exact .inl (((w.tidy_draftParams [] w.params).given t n hlocals).mono (by decide))
  · exact .inr hn

theorem dotless_front (hobject : '.' ∉ t.receiver.toList) :
    ∀ n ∈ (w.body r t).front, '.' ∉ n.toList := by
  intro n hn
  obtain hgiven | rfl | rfl := w.given_front r t hn
  · exact hgiven.dot_not_mem (by decide)
  · exact hobject
  · decide

/-- An entity is found where no name that is visible is its own. -/
theorem areClear_of_names {g : Gathering}
    (houtcome : ∀ x, g.outcome? = some x → IsGiven outcomeWishes x) {visible : List String}
    {ps : List EntityParam} {es : List EntityDraft} (hes : List.Forall₂ w.Drafts ps es)
    (hnames : ∀ p ∈ ps, ¬IsUnderscored p.name ∧ p.name ∉ visible) : areClear g visible es := by
  induction hes generalizing visible with
  | nil => rfl
  | @cons p e ps es he _ ih =>
    obtain ⟨⟨hplain, hfree⟩, hrest⟩ := List.forall_mem_cons.1 hnames
    have hlocals : p.name ∉ e.bind.locals := fun hmem => hplain (he.given_locals hmem).isUnderscored
    rw [areClear, Bool.and_eq_true]
    constructor
    · unfold EntityDraft.isClear
      rw [he.param]
      cases e.item with
      | some item => simpa using hfree
      | none => exact Program.unshadowed_owned hlocals hfree
    · refine ih fun q hq => ⟨(hrest q hq).1, fun hmem => ?_⟩
      unfold EntityDraft.behind at hmem
      cases hitem : e.item with
      | some item =>
        rw [hitem] at hmem
        exact (hrest q hq).2 hmem
      | none =>
        rw [hitem] at hmem
        simp only [List.mem_append] at hmem
        obtain hmem | hmem | hmem := hmem
        · have hx := Gathering.mem_of_outcome? (List.mem_append_right _ hmem)
          exact (hrest q hq).1 (houtcome _ hx).isUnderscored
        · have hgiven := he.given_locals (Program.mem_locals_of_mem_declares hmem)
          exact (hrest q hq).1 hgiven.isUnderscored
        · exact (hrest q hq).2 hmem

/-- Parameters without an underscore in front of their names are not hidden. -/
theorem unshadowed_of_names (hobject : t.receiver = "self" ∨ IsUnderscored t.receiver)
    (hnames : ∀ p ∈ w.params, ¬IsUnderscored p.name ∧ p.name ≠ "self") :
    (w.body r t).unshadowed := by
  refine w.areClear_of_names (fun x hx => w.given_outcome r t hx) (w.drafts_entities r t)
    fun p hp => ⟨(hnames p hp).1, fun hmem => ?_⟩
  obtain hgiven | hname | hname := w.given_front r t hmem
  · exact (hnames p hp).1 hgiven.isUnderscored
  · rcases hobject with hself | hunderscored
    · exact (hnames p hp).2 (hname.trans hself)
    · exact (hnames p hp).1 (hname ▸ hunderscored)
  · exact (hnames p hp).2 hname

/-- A parameter that has the name of the statement is hidden. -/
example : let w : EntityWrite := ⟨.insert, .abort, [memberEntities "_stmt" false]⟩
    (w.body ⟨⟨.insert, some .one⟩, .simple "i64"⟩
      ⟨{ className := "MemberDaoImpl" }, [], "self"⟩).unshadowed = false := by
  decide +kernel

/-- The field that holds the statement of a text. -/
def fieldFor (c : ClassMembers) (text : String) : String :=
  (c.fieldNames.lookup (statementKey text)).getD ""

/-- What the body executes. -/
def done (db : Database V) (arguments : String → V) : List (Execution V) :=
  w.executions db arguments r.execute
    (fun p => fieldFor (w.draft t).naming.members (w.textOf p)) w.params

theorem call_of_mem_done {db : Database V} {arguments : String → V} {x : Execution V}
    (hx : x ∈ w.done r t db arguments) : x.call = r.execute := by
  obtain ⟨p, -, hx⟩ := List.mem_flatMap.1 hx
  obtain ⟨v, -, rfl⟩ := List.mem_map.1 hx
  rfl

/-- The field that is read for a parameter holds the statement of its text. -/
theorem statementField_mem (hholds : HoldStatements t.members) {p : EntityParam}
    (hp : p ∈ w.params) :
    statementField (fieldFor (w.draft t).naming.members (w.textOf p)) (w.textOf p) ∈
      (w.draft t).naming.members.fields := by
  obtain ⟨-, ⟨_, -, hheld⟩, hparams⟩ :=
    w.exec_draftParams counting (fun _ => 0) (atHand_nil t []) w.params
  obtain ⟨_, -, -, hmem⟩ := exists_of_forall₂_left hparams hp
  obtain ⟨field, hfield, -⟩ := hheld.held _ hmem
  have hknown : (w.draft t).naming.members.fieldNames.lookup (statementKey (w.textOf p)) =
      some field := hfield
  rw [fieldFor, hknown, Option.getD_some]
  exact ((w.tidy_draftParams [] w.params).keeps t).statements hholds _ _ hknown

/-- The statements behind the preparation, and what binds the entities to them. -/
theorem exec_preparation (db : Database V) (arguments : String → V) : ∃ prepared,
    (w.body r t).preparation.exec db.toRuntime arguments
      ((w.body r t).outer.map fun name => (name, .pending)) = some prepared ∧
    prepared.names = (w.body r t).preparation.declares ++ (w.body r t).outer ∧
    List.Forall₂ (fun p e => w.Drafts p e ∧ prepared.lookup e.statement =
      some (.statement { source := .shared (fieldFor (w.draft t).naming.members (w.textOf p)) }))
      w.params (w.body r t).entities := by
  let outer : Locals V := (w.body r t).outer.map fun name => (name, .pending)
  have houter : outer.names = (w.body r t).outer := by
    simp [outer, Locals.names, Function.comp_def]
  obtain ⟨-, ⟨prepared, hprepared, hheld⟩, hparams⟩ :=
    w.exec_draftParams db.toRuntime arguments (atHand_nil t outer) w.params
  have hprogram : (w.body r t).preparation = (w.draftParams [] w.params t).program :=
    Program.append_done _
  refine ⟨prepared, hprogram ▸ hprepared, ?_, hparams.imp fun p e he => ⟨he.1, ?_⟩⟩
  · rw [Program.names_exec hprepared, hprogram, houter]
  · obtain ⟨field, hfield, hlookup⟩ := hheld.held _ he.2
    have hfield : (w.draft t).naming.members.fieldNames.lookup (statementKey (w.textOf p)) =
        some field := hfield
    rw [hlookup, fieldFor, hfield, Option.getD_some]

/-- Behind the start of the gathering, the first entity may come. -/
theorem ready_front (db : Database V) (arguments : String → V) (hobject : '.' ∉ t.receiver.toList)
    {prepared : Locals V}
    (hnames : prepared.names = (w.body r t).preparation.declares ++ (w.body r t).outer)
    (hfound : ∀ x param, (w.body r t).gathering = .rows x param → param ∉ (w.body r t).opened) :
    ∃ ls, (w.body r t).gathering.begin db arguments
        (((w.body r t).transaction, .pending) :: prepared) = some ls ∧
      Ready db (w.body r t).gathering prepared (w.body r t).front ⟨ls, []⟩ := by
  have hopened : Locals.names (((w.body r t).transaction, .pending) :: prepared) =
      (w.body r t).opened := by
    rw [Locals.names_cons, hnames, EntityBody.opened]
  obtain ⟨ls, hbegin, hbegun, hholds, hsame⟩ := Gathering.exec_begin db (w.body r t).gathering
    arguments fun x param hg => hopened ▸ hfound x param hg
  refine ⟨ls, hbegin, by rw [hbegun, hopened, EntityBody.front], w.dotless_front r t hobject,
    fun n hn => ?_, hholds⟩
  have houtcome : (w.body r t).gathering.outcome? ≠ some n := fun hx =>
    hn.not_both (w.given_outcome r t hx) (by decide) (by decide)
  have htransaction : n ≠ (w.body r t).transaction := fun he =>
    hn.not_both (he ▸ w.given_transaction r t) (by decide) (by decide)
  exact (hsame n houtcome).trans (Locals.lookup_cons_ne htransaction)

theorem hidden_of_rows {x param : String} (h : (w.body r t).gathering = .rows x param)
    (hparam : param ∈ (w.body r t).front) : (w.body r t).unshadowed = false := by
  obtain ⟨e, hes, hitem, rfl⟩ := w.entities_of_rows r t h
  obtain ⟨item, hitem⟩ := Option.isSome_iff_exists.1 hitem
  rw [EntityBody.unshadowed, hes, areClear, EntityDraft.isClear, hitem]
  simp [hparam]

/-- An outcome of its own is that of one execution. -/
theorem length_done_of_only (db : Database V) (arguments : String → V) {x : String}
    (h : (w.body r t).gathering = .only x) : (w.done r t db arguments).length = 1 := by
  obtain ⟨e, hes, hitem⟩ := w.entities_of_only r t h
  have hparams := w.drafts_entities r t
  rw [hes] at hparams
  obtain ⟨p, ps, hdrafts, hnone, hps⟩ := List.forall₂_cons_right_iff.1 hparams
  obtain rfl := List.forall₂_nil_right_iff.1 hnone
  have hone : p.isCollection = false := by rw [← hdrafts.isSome_item, hitem]; rfl
  simp [done, executions, hps, held, hone]

section Work

variable (db : Database V) (arguments : String → V) {prepared : Locals V}
  (hnames : prepared.names = (w.body r t).preparation.declares ++ (w.body r t).outer)
include hnames

/-- There is no result where the parameter whose rows are gathered is hidden at once. -/
theorem execWork_of_hidden {x param : String} (hg : (w.body r t).gathering = .rows x param)
    (hparam : param ∈ (w.body r t).opened) :
    (w.body r t).execWork db arguments prepared = none := by
  have hnone : (w.body r t).gathering.begin db arguments
      (((w.body r t).transaction, .pending) :: prepared) = none := by
    rw [hg]
    refine Gathering.exec_begin_hidden arguments ?_
    rwa [Locals.names_cons, hnames]
  rw [EntityBody.execWork, hnone]
  rfl

/-- Everything behind the preparation, for statements that are at hand. -/
theorem execWork_of_found (hobject : '.' ∉ t.receiver.toList)
    (hes : List.Forall₂ (fun p e => w.Drafts p e ∧ prepared.lookup e.statement =
      some (.statement { source := .shared (fieldFor (w.draft t).naming.members (w.textOf p)) }))
      w.params (w.body r t).entities)
    (hfound : ∀ x param, (w.body r t).gathering = .rows x param → param ∉ (w.body r t).opened) :
    (w.body r t).execWork db arguments prepared =
      if (w.body r t).unshadowed then
        some (w.done r t db arguments,
          (w.body r t).gathering.result db (db.answers (w.done r t db arguments)))
      else none := by
  obtain ⟨ls, hbegin, hready⟩ := w.ready_front r t db arguments hobject hnames hfound
  obtain ⟨hruns, hfails⟩ := hready.exec_entities r.execute arguments
    (fun x hx => w.given_outcome r t hx) hes fun e he hitem => w.adds_of_item r t he hitem
  have hexecute : (w.body r t).execute = r.execute := rfl
  rw [EntityBody.execWork, hbegin, hexecute]
  cases hclear : (w.body r t).unshadowed with
  | false =>
    simp only [Option.bind_eq_bind, Option.bind_some, hfails hclear, Option.bind_none,
      Bool.false_eq_true, if_false]
  | true =>
    obtain ⟨s, hfold, hdone, hgathered⟩ := hruns hclear
    have hdone : s.done = w.done r t db arguments := hdone
    -- an outcome of its own is there, since one entity was executed
    have hne : ∀ x, (w.body r t).gathering = .only x → db.answers s.done ≠ [] := by
      intro x hx hnil
      have hlength := w.length_done_of_only r t db arguments hx
      rw [← hdone, ← db.length_answers, hnil] at hlength
      cases hlength
    simp only [Option.bind_eq_bind, Option.bind_some, hfold, hgathered.finish hne, if_true, hdone]
    rfl

end Work

/-- The body, run: its executions and what it returns for them. There is no result exactly where a
local variable hides a parameter. -/
theorem exec_body (db : Database V) (arguments : String → V) (hobject : '.' ∉ t.receiver.toList) :
    (w.body r t).exec db arguments =
      if (w.body r t).unshadowed then
        some (w.done r t db arguments,
          (w.body r t).gathering.result db (db.answers (w.done r t db arguments)))
      else none := by
  obtain ⟨prepared, hexec, hnames, hes⟩ := w.exec_preparation r t db arguments
  have hwork : (w.body r t).exec db arguments = (w.body r t).execWork db arguments prepared := by
    rw [EntityBody.exec, hexec]
    rfl
  rw [hwork]
  by_cases hfound : ∀ x param, (w.body r t).gathering = .rows x param → param ∉ (w.body r t).opened
  · exact w.execWork_of_found r t db arguments hnames hobject hes hfound
  · obtain ⟨x, param, hg, hparam⟩ : ∃ x param, (w.body r t).gathering = .rows x param ∧
        param ∈ (w.body r t).opened := by simpa using hfound
    rw [w.execWork_of_hidden r t db arguments hnames hg hparam,
      w.hidden_of_rows r t hg (List.mem_append_right _ hparam)]
    rfl

end Body

end EntityWrite

end DataAccess.Statement
