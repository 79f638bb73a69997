import DataAccess.Proofs.Convert.Binding
import DataAccess.Proofs.Statement.PlainBinding
import DataAccess.Proofs.Statement.TidyDrafts

/-!
The preparation of a write of entities as drafts: statements that are shared by equal texts, and for
each parameter a program that binds one of its entities.
-/

set_option autoImplicit false

namespace DataAccess.Statement

open Code Delivery Schema
open DataAccess.Convert

/-- What is prepared for a parameter: its statement and the program that binds an entity to it. -/
structure EntityDraft where
  statement : String
  param : String
  item : Option String
  bind : Program

namespace EntityDraft

/-- The variable for the entity that is bound. -/
def owner (e : EntityDraft) : String := e.item.getD e.param

def code (e : EntityDraft) : EntityStatement :=
  ⟨e.statement, e.param, e.item, ({} : Block).append e.bind⟩

end EntityDraft

/-- Binds the columns of an entity from an index on. -/
def draftColumns (stmt owner : String) (k : Nat) (columns : List BoundColumn) : Draft Unit :=
  (columns.zipIdx k).forM fun c =>
    c.1.binder.draft stmt (.fixed c.2) (.parameter (c.1.value owner))

theorem extends_draftColumns (stmt owner : String) (k : Nat) (columns : List BoundColumn) :
    (draftColumns stmt owner k columns).Extends := by
  induction columns generalizing k with
  | nil => exact Draft.extends_pure ()
  | cons c columns ih => exact (c.binder.extends_draft _ _ _).bind fun _ => ih (k + 1)

theorem tidy_draftColumns (stmt owner : String) (k : Nat) (columns : List BoundColumn) :
    (draftColumns stmt owner k columns).Tidy conversionWishes :=
  Draft.tidy_forM fun c => c.1.binder.tidy_draft (List.Subset.refl _) _ _ _

/-- What is bound for the columns of an entity. -/
def cellsOfColumns {V : Type} (rt : Runtime V) (arguments : String → V) (owner : String)
    (columns : List BoundColumn) : List (Cell V) :=
  columns.map fun c => c.binder.cell rt (arguments (c.value owner))

/-- A program binds the columns of an entity from an index on. It makes new variables only and
changes no other one than the statement. -/
structure BindsColumns (stmt owner : String) (k : Nat) (columns : List BoundColumn) (t : Naming)
    (p : Program) : Prop where
  fresh : ∀ n ∈ p.locals, ¬t.Issued n
  runs : ∀ {V : Type} {rt : Runtime V} {arguments : String → V} {ls : Locals V} {s : Prepared V},
    p.unshadowed ls.names → ls.lookup stmt = some (.statement s) →
    ∃ ls', p.exec rt arguments ls = some ls' ∧
      ls'.lookup stmt =
        some (.statement (s.bindAll k (cellsOfColumns rt arguments owner columns))) ∧
      ∀ n, n ∉ p.locals → n ≠ stmt → ls'.lookup n = ls.lookup n

theorem bindsColumns_draftColumns {stmt : String} (owner : String) (k : Nat)
    (columns : List BoundColumn) {t : Naming} (hstmt : t.Issued stmt) :
    BindsColumns stmt owner k columns t (draftColumns stmt owner k columns t).program := by
  induction columns generalizing k t with
  | nil =>
    refine ⟨nofun, fun {V rt arguments ls s} _ hs => ⟨ls, rfl, ?_, fun _ _ _ => rfl⟩⟩
    rw [hs, cellsOfColumns, List.map_nil, Prepared.bindAll_nil]
  | cons c columns ih =>
    have hextends := c.binder.extends_draft stmt (.fixed k) (.parameter (c.value owner)) t
    obtain ⟨hidden, hreads, hfresh⟩ := c.binder.reads_draft (.parameter (c.value owner)) hstmt
      fun n (hn : Amount.fixed k = .held n) => nomatch hn
    obtain ⟨hnew, hruns⟩ := ih (k + 1) (hextends _ hstmt)
    let first := (c.binder.draft stmt (.fixed k) (.parameter (c.value owner)) t).program
    let rest := (draftColumns stmt owner (k + 1) columns
      (c.binder.draft stmt (.fixed k) (.parameter (c.value owner)) t).naming).program
    change BindsColumns stmt owner k (c :: columns) t (first.append rest)
    refine ⟨fun n hn => ?_, fun {V rt arguments ls s} hclear hs => ?_⟩
    · rw [Program.locals_append] at hn
      rcases List.mem_append.1 hn with hn | hn
      · exact hfresh n hn
      · exact fun hissued => hnew n hn (hextends n hissued)
    · rw [Program.unshadowed_append, hreads.unshadowed_eq, Bool.and_eq_true] at hclear
      have hread : (ls.shade hidden).read rt arguments (c.value owner) =
          some (arguments (c.value owner)) := by
        refine Locals.read_parameter ?_
        rw [Locals.names_shade]
        simpa [Var.isClear] using hclear.1
      obtain ⟨ls₁, hexec, hs₁, hframe⟩ := hreads.runs hread hs rfl
      rw [← Program.names_exec hexec] at hclear
      obtain ⟨ls', hexec', hs', hframe'⟩ := hruns hclear.2 hs₁
      refine ⟨ls', ?_, ?_, fun n hn hne => ?_⟩
      · rw [Program.exec_append, hexec]
        exact hexec'
      · have hcells : cellsOfColumns rt arguments owner (c :: columns) =
            c.binder.cell rt (arguments (c.value owner)) ::
              cellsOfColumns rt arguments owner columns := rfl
        rw [hs', hcells, Prepared.bindAll_cons]
        rfl
      · rw [Program.locals_append, List.mem_append, not_or] at hn
        rw [hframe' n hn.2 hne, hframe n hn.1 hne]

theorem dot_mem_value (c : BoundColumn) (owner : String) : '.' ∈ (c.value owner).toList := by
  simp [BoundColumn.value]

/-- The fields of an entity are hidden by no variable whose name contains no dot. -/
theorem unshadowed_draftColumns (stmt owner : String) (k : Nat) (columns : List BoundColumn)
    {t : Naming} (hstmt : t.Issued stmt) {visible : List String}
    (hvisible : ∀ n ∈ visible, '.' ∉ n.toList) :
    (draftColumns stmt owner k columns t).program.unshadowed visible := by
  induction columns generalizing k t visible with
  | nil => rfl
  | cons c columns ih =>
    have hextends := c.binder.extends_draft stmt (.fixed k) (.parameter (c.value owner)) t
    have htidy := c.binder.tidy_draft (List.Subset.refl _) stmt (.fixed k)
      (.parameter (c.value owner))
    have hdot : ∀ w ∈ conversionWishes, '.' ∉ (Emit.localBase w).toList := by decide
    obtain ⟨hidden, hreads, -⟩ := c.binder.reads_draft (.parameter (c.value owner)) hstmt
      fun n (hn : Amount.fixed k = .held n) => nomatch hn
    have hdotless : ∀ n ∈ hidden ++ visible, '.' ∉ n.toList := by
      intro n hn
      rcases List.mem_append.1 hn with hn | hn
      · exact (htidy.given t n (hreads.hidden_subset hn)).dot_not_mem hdot
      · exact hvisible n hn
    refine Program.unshadowed_append.trans ?_
    rw [hreads.unshadowed_eq, Bool.and_eq_true]
    refine ⟨?_, ih (k + 1) (hextends _ hstmt) fun n hn => ?_⟩
    · have hclear : c.value owner ∉ hidden ++ visible := fun hmem =>
        hdotless _ hmem (dot_mem_value c owner)
      simpa [Var.isClear] using hclear
    · rcases List.mem_append.1 hn with hn | hn
      · exact (htidy.given t n (Program.mem_locals_of_mem_declares hn)).dot_not_mem hdot
      · exact hvisible n hn

namespace EntityWrite

variable (w : EntityWrite)

/-- The text of the statement for a parameter. -/
def textOf (p : EntityParam) : String := p.sql w.kind w.onConflict

/-- The field for the statement of a parameter. -/
def statementSpec (p : EntityParam) : ClassMembers.FieldSpec :=
  preparedField (Text.asciiLower w.kind.name ++ "_stmt_of_" ++ Text.snakeCase p.entity) (w.textOf p)

/-- Takes the statement for a parameter, unless one with an equal text is at hand. -/
def draftTaking (acquired : List (String × String)) (p : EntityParam) :
    Draft (String × List (String × String)) :=
  match acquired.lookup (w.textOf p) with
  | some statement => pure (statement, acquired)
  | none => do
    let field ← Draft.onMembers (ClassMembers.field (w.statementSpec p))
    let statement ← Draft.fresh "stmt"
    let object ← Draft.receiver
    Draft.step (.define "let mut " statement "" (.shared object field))
    return (statement, (w.textOf p, statement) :: acquired)

def draftItem (p : EntityParam) : Draft (Option String) :=
  if p.isCollection then do return some (← Draft.fresh "item") else return none

def draftBinding (p : EntityParam) (statement : String) : Draft EntityDraft := do
  let item ← draftItem p
  let bind ← Draft.apart
    (draftColumns statement (item.getD p.name) 1 (p.boundColumns w.kind))
  return ⟨statement, p.name, item, bind⟩

/-- Prepares all parameters; the texts of the statements at hand are returned as well. -/
def draftParams (w : EntityWrite) (acquired : List (String × String)) :
    List EntityParam → Draft (List EntityDraft × List (String × String))
  | [] => return ([], acquired)
  | p :: rest => do
    let taken ← w.draftTaking acquired p
    let e ← w.draftBinding p taken.1
    let more ← w.draftParams taken.2 rest
    return (e :: more.1, more.2)

def draft : Draft (List EntityDraft) := do return (← w.draftParams [] w.params).1

section Realize

theorem realize_draftColumns (stmt owner : String) (k : Nat) (columns : List BoundColumn) :
    (draftColumns stmt owner k columns).realize =
      (columns.zipIdx k).forM fun c => c.1.binder.write stmt (toString c.2) (c.1.value owner) := by
  simp [draftColumns, ValueBinder.realize_draft, Amount.text]

theorem realize_draftTaking (acquired : List (String × String)) (p : EntityParam) :
    (w.draftTaking acquired p).realize = w.takeStatement acquired p := by
  have hshared (statement object field : String) :
      (Instr.define "let mut " statement "" (.shared object field)).text =
        "let mut " ++ statement ++ " = " ++ object ++ "." ++ field ++ ".acquire()" := by
    simp only [Instr.text, Expr.text, String.append_assoc, String.empty_append]
  unfold draftTaking takeStatement
  cases hlookup : acquired.lookup (w.textOf p) with
  | some statement =>
    rw [textOf] at hlookup
    simp [hlookup]
  | none =>
    rw [textOf] at hlookup
    simp [hlookup, hshared, Emit.sharedField, statementSpec, textOf]

theorem realize_draftBinding (p : EntityParam) (taken : String × List (String × String)) :
    (do
      let e ← (w.draftBinding p taken.1).realize
      return (e.code, taken.2)) = w.bindParam p taken := by
  have hfork (item : Option String) : Emit.fork
      ((p.boundColumns w.kind).zipIdx 1 |>.forM fun c =>
        c.1.binder.write taken.1 (toString c.2) (c.1.value (item.getD p.name))) =
      (({} : Block).append ·) <$> (Draft.apart
        (draftColumns taken.1 (item.getD p.name) 1 (p.boundColumns w.kind))).realize := by
    rw [Draft.realize_apart, realize_draftColumns]
  have hbind (item : Option String) : (do
      let bind ← Emit.fork ((p.boundColumns w.kind).zipIdx 1 |>.forM fun c =>
        c.1.binder.write taken.1 (toString c.2) (c.1.value (item.getD p.name)))
      return ((⟨taken.1, p.name, item, bind⟩ : EntityStatement), taken.2)) = (do
      let bind ← (Draft.apart
        (draftColumns taken.1 (item.getD p.name) 1 (p.boundColumns w.kind))).realize
      return ((⟨taken.1, p.name, item, bind⟩ : EntityDraft).code, taken.2)) := by
    simp only [hfork, map_eq_pure_bind, bind_assoc, pure_bind]
    rfl
  unfold draftBinding bindParam draftItem
  cases p.isCollection with
  | true =>
    simp only [if_true, Draft.realize_bind, Draft.realize_fresh, Draft.realize_pure, bind_assoc,
      pure_bind, map_eq_pure_bind]
    exact congrArg (Emit.fresh "item" >>= ·) (funext fun item => (hbind (some item)).symm)
  | false =>
    simp only [Bool.false_eq_true, if_false, Draft.realize_bind, Draft.realize_pure, bind_assoc,
      pure_bind]
    exact (hbind none).symm

theorem realize_draftParams (acquired : List (String × String)) (params : List EntityParam) :
    (fun r => r.1.map EntityDraft.code) <$> (w.draftParams acquired params).realize =
      w.prepareParams acquired params := by
  induction params generalizing acquired with
  | nil => simp [draftParams, prepareParams]
  | cons p rest ih =>
    rw [prepareParams, prepareParam_eq]
    simp only [draftParams, Draft.realize_bind, realize_draftTaking, bind_assoc, ← ih,
      ← realize_draftBinding]
    simp

theorem realize_draft :
    (fun es => StatementSource.entities (es.map EntityDraft.code)) <$> w.draft.realize =
      w.prepare := by
  unfold draft prepare
  rw [← realize_draftParams]
  simp

end Realize

section Statements

variable {t t' : Naming} {acquired : List (String × String)}

theorem extends_draftTaking (acquired : List (String × String)) (p : EntityParam) :
    (w.draftTaking acquired p).Extends := by
  unfold draftTaking
  cases acquired.lookup (w.textOf p) with
  | some statement => exact Draft.extends_pure _
  | none =>
    refine (Draft.extends_onMembers _).bind fun field => (Draft.extends_fresh _).bind fun st => ?_
    refine Draft.extends_receiver.bind fun object => (Draft.extends_step _).bind fun _ => ?_
    exact Draft.extends_pure _

theorem tidy_draftTaking (acquired : List (String × String)) (p : EntityParam) :
    (w.draftTaking acquired p).Tidy ["stmt"] := by
  unfold draftTaking
  cases acquired.lookup (w.textOf p) with
  | some statement => exact Draft.tidy_pure _
  | none =>
    refine (Draft.tidy_onMembers (Keeps.preparedField _ _)).bind fun field => ?_
    refine Draft.tidy_fresh (by decide) fun statement h => Draft.tidy_receiver.bind fun object => ?_
    exact (Draft.tidy_define h).bind fun _ => Draft.tidy_pure _

theorem extends_draftBinding (p : EntityParam) (statement : String) :
    (w.draftBinding p statement).Extends := by
  have hitem : (draftItem p).Extends := by
    unfold draftItem
    split
    · exact (Draft.extends_fresh _).bind fun _ => Draft.extends_pure _
    · exact Draft.extends_pure _
  refine hitem.bind fun item => Draft.Extends.bind ?_ fun _ => Draft.extends_pure _
  exact (extends_draftColumns _ _ _ _).apart

/-- Nothing is written for the binding of an entity, which is written apart. -/
theorem program_draftBinding (p : EntityParam) (statement : String) (t : Naming) :
    (w.draftBinding p statement t).program = .done := by
  unfold draftBinding draftItem
  cases p.isCollection <;> rfl

theorem keeps_draftBinding (p : EntityParam) (statement : String) (t : Naming) :
    Keeps t.members (w.draftBinding p statement t).naming.members := by
  have hitem : (draftItem p).Tidy ["item"] := by
    unfold draftItem
    split
    · exact Draft.tidy_fresh (by decide) fun _ _ => Draft.tidy_pure _
    · exact Draft.tidy_pure _
  have hcolumns : ∀ owner,
      (draftColumns statement owner 1 (p.boundColumns w.kind)).apart.Tidy conversionWishes :=
    fun owner => (tidy_draftColumns _ _ _ _).apart
  unfold draftBinding
  exact (hitem.keeps t).trans ((hcolumns _).keeps _)

/-- The variables in scope hold a statement for each of some texts, and equal texts share it. -/
structure AtHand {V : Type} (t : Naming) (acquired : List (String × String)) (ls : Locals V) :
    Prop where
  issued : ∀ a ∈ acquired, t.Issued a.2
  given : ∀ a ∈ acquired, IsGiven ["stmt"] a.2
  held : ∀ a ∈ acquired, ∃ field, t.members.fieldNames.lookup (statementKey a.1) = some field ∧
    ls.lookup a.2 = some (.statement { source := .shared field })
  shared : ∀ a ∈ acquired, ∀ b ∈ acquired, a.2 = b.2 ↔ a.1 = b.1

theorem atHand_nil {V : Type} (t : Naming) (ls : Locals V) : AtHand t [] ls :=
  ⟨nofun, nofun, nofun, nofun⟩

theorem AtHand.mono {V : Type} {ls : Locals V} (h : AtHand t acquired ls) (hextends : t.Extends t')
    (hkeeps : Keeps t.members t'.members) : AtHand t' acquired ls where
  issued a ha := hextends _ (h.issued a ha)
  given := h.given
  held a ha := by
    obtain ⟨field, hfield, hheld⟩ := h.held a ha
    exact ⟨field, hkeeps.known hfield, hheld⟩
  shared := h.shared

/-- A statement for another text. -/
theorem AtHand.cons {V : Type} {ls : Locals V} {sql statement field : String}
    (h : AtHand t acquired ls) (hnew : ¬t.Issued statement) (hextends : t.Extends t')
    (hkeeps : Keeps t.members t'.members) (hissued : t'.Issued statement)
    (hgiven : IsGiven ["stmt"] statement) (hsql : acquired.lookup sql = none)
    (hfield : t'.members.fieldNames.lookup (statementKey sql) = some field) :
    AtHand t' ((sql, statement) :: acquired)
      ((statement, .statement { source := .shared field }) :: ls) := by
  have hmono := h.mono hextends hkeeps
  have hne : ∀ a ∈ acquired, a.2 ≠ statement ∧ a.1 ≠ sql := by
    refine fun a ha => ⟨fun he => hnew (he ▸ h.issued a ha), fun he => ?_⟩
    have hlookup := List.lookup_eq_none_iff.1 hsql a ha
    simp [he] at hlookup
  refine ⟨List.forall_mem_cons.2 ⟨hissued, hmono.issued⟩,
    List.forall_mem_cons.2 ⟨hgiven, h.given⟩, List.forall_mem_cons.2 ⟨?_, ?_⟩, ?_⟩
  · exact ⟨field, hfield, List.lookup_cons_self⟩
  · intro a ha
    obtain ⟨f, hf, hheld⟩ := hmono.held a ha
    exact ⟨f, hf, (Locals.lookup_cons_ne (hne a ha).1).trans hheld⟩
  · refine List.forall_mem_cons.2 ⟨List.forall_mem_cons.2 ⟨by simp, ?_⟩, fun a ha => ?_⟩
    · intro b hb
      simp [(hne b hb).1.symm, (hne b hb).2.symm]
    · refine List.forall_mem_cons.2 ⟨?_, fun b hb => h.shared a ha b hb⟩
      simp [(hne a ha).1, (hne a ha).2]

/-- The field that is requested for a statement is known by its text. -/
theorem lookup_statementSpec (p : EntityParam) (c : ClassMembers) :
    ((ClassMembers.field (w.statementSpec p)).run c).2.fieldNames.lookup
      (statementKey (w.textOf p)) = some ((ClassMembers.field (w.statementSpec p)).run c).1 := by
  have hkey : statementKey (w.textOf p) = (w.statementSpec p).key := rfl
  rw [ClassMembers.run_field, hkey]
  cases hlookup : c.fieldNames.lookup (w.statementSpec p).key with
  | some name => exact hlookup
  | none => exact List.lookup_cons_self

/-- Behind the taking of a statement it is at hand for the text of the parameter. -/
theorem exec_draftTaking {V : Type} (rt : Runtime V) (arguments : String → V) {ls : Locals V}
    (h : AtHand t acquired ls) (p : EntityParam) :
    (w.textOf p, (w.draftTaking acquired p t).value.1) ∈ (w.draftTaking acquired p t).value.2 ∧
      acquired ⊆ (w.draftTaking acquired p t).value.2 ∧
      ∃ ls', (w.draftTaking acquired p t).program.exec rt arguments ls = some ls' ∧
        AtHand (w.draftTaking acquired p t).naming (w.draftTaking acquired p t).value.2 ls' := by
  have hextends := w.extends_draftTaking acquired p t
  have hkeeps := (w.tidy_draftTaking acquired p).keeps t
  have hfield := w.lookup_statementSpec p t.members
  unfold draftTaking at hextends hkeeps ⊢
  cases hlookup : acquired.lookup (w.textOf p) with
  | some statement =>
    obtain ⟨before, after, hacquired, -⟩ := List.lookup_eq_some_iff.1 hlookup
    refine ⟨?_, List.Subset.refl _, ls, rfl, h⟩
    change (w.textOf p, statement) ∈ acquired
    rw [hacquired]
    simp
  | none =>
    rw [hlookup] at hextends hkeeps
    let request := ClassMembers.field (w.statementSpec p)
    let t₁ := (Draft.onMembers request t).naming
    have hnew : ¬t.Issued (Draft.fresh "stmt" t₁).value := fun hissued =>
      Naming.not_issued_fresh (by decide) t₁ (Draft.extends_onMembers request t _ hissued)
    refine ⟨List.mem_cons_self, List.subset_cons_self _ _, _, Program.exec_step rfl, ?_⟩
    exact h.cons hnew hextends hkeeps (Naming.issued_fresh (by decide) t₁)
      (IsGiven.fresh (by decide) t₁) hlookup hfield

theorem tidy_draftBinding (p : EntityParam) (statement : String) :
    (w.draftBinding p statement).Tidy ["stmt"] := by
  refine ⟨fun t => ?_, w.keeps_draftBinding p statement⟩
  rw [program_draftBinding]
  exact nofun

theorem tidy_draftParams (acquired : List (String × String)) (params : List EntityParam) :
    (w.draftParams acquired params).Tidy ["stmt"] := by
  induction params generalizing acquired with
  | nil => exact Draft.tidy_pure _
  | cons p rest ih =>
    refine (w.tidy_draftTaking acquired p).bind fun taken => (w.tidy_draftBinding p _).bind fun e => ?_
    exact (ih _).bind fun more => Draft.tidy_pure _

/-- What was drafted for a parameter. -/
structure Drafts (p : EntityParam) (e : EntityDraft) : Prop where
  param : e.param = p.name
  isSome_item : e.item.isSome = p.isCollection
  given : IsGiven ["stmt"] e.statement
  item_given : ∀ x, e.item = some x → IsGiven ["item"] x
  bind : ∃ t : Naming, t.Issued e.statement ∧ (∀ x, e.item = some x → t.Issued x) ∧
    e.bind = (draftColumns e.statement e.owner 1 (p.boundColumns w.kind) t).program

theorem drafts_draftBinding (p : EntityParam) {statement : String} (hissued : t.Issued statement)
    (hgiven : IsGiven ["stmt"] statement) :
    (w.draftBinding p statement t).value.statement = statement ∧
      w.Drafts p (w.draftBinding p statement t).value := by
  unfold draftBinding draftItem
  cases hcollection : p.isCollection with
  | false =>
    refine ⟨rfl, rfl, hcollection.symm, hgiven, nofun, t, hissued, nofun, rfl⟩
  | true =>
    refine ⟨rfl, rfl, hcollection.symm, hgiven, fun x hx => ?_, (Draft.fresh "item" t).naming,
      Naming.extends_fresh "item" t _ hissued, fun x hx => ?_, rfl⟩
    · obtain rfl : (Draft.fresh "item" t).value = x := Option.some.inj hx
      exact IsGiven.fresh (by decide) t
    · obtain rfl : (Draft.fresh "item" t).value = x := Option.some.inj hx
      exact Naming.issued_fresh (by decide) t

/-- Behind the preparation the statement of every parameter is at hand for its text. -/
theorem exec_draftParams {V : Type} (rt : Runtime V) (arguments : String → V) {ls : Locals V}
    (h : AtHand t acquired ls) (params : List EntityParam) :
    acquired ⊆ (w.draftParams acquired params t).value.2 ∧
      (∃ ls', (w.draftParams acquired params t).program.exec rt arguments ls = some ls' ∧
        AtHand (w.draftParams acquired params t).naming (w.draftParams acquired params t).value.2
          ls') ∧
      List.Forall₂ (fun p e => w.Drafts p e ∧
          (w.textOf p, e.statement) ∈ (w.draftParams acquired params t).value.2)
        params (w.draftParams acquired params t).value.1 := by
  induction params generalizing t acquired ls with
  | nil => exact ⟨List.Subset.refl _, ⟨ls, rfl, h⟩, .nil⟩
  | cons p rest ih =>
    obtain ⟨hmem, hsubset, ls₁, hexec₁, h₁⟩ := w.exec_draftTaking rt arguments h p
    let taken := w.draftTaking acquired p t
    let bound := w.draftBinding p taken.value.1 taken.naming
    have h₂ := h₁.mono (w.extends_draftBinding p taken.value.1 taken.naming)
      (w.keeps_draftBinding p taken.value.1 taken.naming)
    obtain ⟨hstatement, hdrafts⟩ :=
      w.drafts_draftBinding p (h₁.issued _ hmem) (h₁.given _ hmem)
    obtain ⟨hmore, ⟨ls', hexec', h'⟩, hrest⟩ := ih h₂
    have hprogram : (w.draftParams acquired (p :: rest) t).program = taken.program.append
        (w.draftParams taken.value.2 rest bound.naming).program := by
      change taken.program.append (bound.program.append (Program.append _ .done)) = _
      rw [program_draftBinding, Program.append_done]
      rfl
    refine ⟨List.Subset.trans hsubset hmore, ⟨ls', ?_, h'⟩, .cons ⟨hdrafts, hmore ?_⟩ hrest⟩
    · rw [hprogram, Program.exec_append, hexec₁]
      exact hexec'
    · rw [hstatement]
      exact hmem

end Statements

end EntityWrite

end DataAccess.Statement
