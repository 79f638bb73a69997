import DataAccess.Delivery.Provider
import DataAccess.Proofs.Statement.EntityDrafts

/-!
The body of a method that writes entities, with a text and a meaning: it prepares the statements,
begins a transaction, binds and executes for one entity after the other and returns what it gathered
of the outcomes.
-/

set_option autoImplicit false

namespace DataAccess

namespace Code

/-! Programs that read the fields of an owner, with the owner in their place. -/

def Var.owned (owner : String) : Var → Var
  | parameter _ => parameter owner
  | temporary name => temporary name

def Expr.owned (owner : String) : Expr → Expr
  | length x => length (x.owned owner)
  | convert step x => convert step (x.owned owner)
  | e => e

def Instr.owned (owner : String) : Instr → Instr
  | define keyword name type value => define keyword name type (value.owned owner)
  | assign name value => assign name (value.owned owner)
  | bind statement index kind borrowed x => bind statement index kind borrowed (x.owned owner)
  | i => i

def Program.owned (owner : String) : Program → Program
  | done => done
  | step i rest => step (i.owned owner) (rest.owned owner)
  | each item x body rest => each item (x.owned owner) (body.owned owner) (rest.owned owner)
  | select x absent present found rest =>
    select (x.owned owner) (absent.owned owner) present (found.owned owner) (rest.owned owner)
  | inspect x absent present body rest =>
    inspect (x.owned owner) (absent.owned owner) present (body.owned owner) (rest.owned owner)

section Owned

variable {owner : String} {visible : List String}

theorem Var.isClear_owned (h : owner ∉ visible) (x : Var) : (x.owned owner).isClear visible := by
  cases x with
  | parameter name => simpa [owned, isClear] using h
  | temporary name => rfl

theorem Instr.isClear_owned (h : owner ∉ visible) (i : Instr) :
    (i.owned owner).isClear visible := by
  have hvalue : ∀ value : Expr, (value.owned owner).isClear visible := fun value => by
    cases value with
    | length x | convert step x => exact x.isClear_owned h
    | _ => rfl
  cases i with
  | define keyword name type value | assign name value => exact hvalue value
  | bind statement index kind borrowed x => exact x.isClear_owned h
  | _ => rfl

theorem Instr.declares_owned (i : Instr) : (i.owned owner).declares = i.declares := by
  cases i <;> rfl

/-- An owner is visible throughout a program that makes no variable of its name. -/
theorem Program.unshadowed_owned {p : Program} (hlocals : owner ∉ p.locals)
    (hvisible : owner ∉ visible) : (p.owned owner).unshadowed visible := by
  induction p generalizing visible with
  | done => rfl
  | step i rest ih =>
    simp only [locals, List.mem_append, not_or] at hlocals
    have hrest : owner ∉ i.declares ++ visible := by simp [hlocals.1, hvisible]
    simp [owned, unshadowed, Instr.declares_owned, i.isClear_owned hvisible, ih hlocals.2 hrest]
  | each item x body rest hbody ih =>
    simp only [locals, List.mem_cons, List.mem_append, not_or] at hlocals
    have hinside : owner ∉ item :: visible := by simp [hlocals.1, hvisible]
    simp [owned, unshadowed, x.isClear_owned hvisible, hbody hlocals.2.1 hinside,
      ih hlocals.2.2 hvisible]
  | select x absent present found rest ih =>
    simp only [locals, List.mem_cons, not_or] at hlocals
    have hinside : owner ∉ present :: visible := by simp [hlocals.1, hvisible]
    simp [owned, unshadowed, x.isClear_owned hvisible, absent.isClear_owned hvisible,
      found.isClear_owned hinside, ih hlocals.2 hvisible]
  | inspect x absent present body rest hbody ih =>
    simp only [locals, List.mem_cons, List.mem_append, not_or] at hlocals
    have hinside : owner ∉ present :: visible := by simp [hlocals.1, hvisible]
    simp [owned, unshadowed, x.isClear_owned hvisible, absent.isClear_owned hvisible,
      hbody hlocals.2.1 hinside, ih hlocals.2.2 hvisible]

end Owned

/-- The value of a parameter. There is none where a local variable has its name, since a local
variable in front of the entities holds none. -/
def Locals.entity? {V : Type} (arguments : String → V) (ls : Locals V) (name : String) : Option V :=
  if ls.names.contains name then none else some (arguments name)

def Locals.value? {V : Type} (ls : Locals V) (name : String) : Option V :=
  match ls.lookup name with
  | some (.value v) => some v
  | _ => none

end Code

namespace Statement

open Code Delivery

/-- The calls that execute a statement, by what they return. -/
inductive Execute where
  | plain
  | insert
  | updateDelete
deriving DecidableEq

def Execute.text (statement : String) : Execute → String
  | plain => statement ++ ".execute()?"
  | insert => statement ++ ".execute_insert()?"
  | updateDelete => statement ++ ".execute_update_delete()?"

/-- How a body gathers what its executions return. -/
inductive Gathering where
  | nothing
  /-- What the only execution returns. -/
  | only (outcome : String)
  /-- What is returned for each element of a parameter. -/
  | rows (outcome param : String)
  | sum (outcome : String)

namespace Gathering

/-- What is written in front of all executions. -/
def start : Gathering → List String
  | nothing | only _ => []
  | rows outcome param => ["let mut " ++ outcome ++ " = Vec::with_capacity(" ++ param ++ ".len())"]
  | sum outcome => ["let mut " ++ outcome ++ ": i32 = 0"]

/-- The line of an execution. -/
def line (call : String) : Gathering → String
  | nothing => call
  | only outcome => "let " ++ outcome ++ " = " ++ call
  | rows outcome _ => outcome ++ ".push(" ++ call ++ ")"
  | sum outcome => outcome ++ " += " ++ call

def value : Gathering → String
  | nothing => "()"
  | only outcome | rows outcome _ | sum outcome => outcome

/-- The variables that are made in front of all executions. -/
def declares : Gathering → List String
  | nothing | only _ => []
  | rows outcome _ | sum outcome => [outcome]

/-- The variables that an execution makes. -/
def adds : Gathering → List String
  | only outcome => [outcome]
  | _ => []

end Gathering

namespace EntityDraft

variable (e : EntityDraft)

/-- The lines that bind an entity and execute the statement, or do so for each element. -/
def lines (text : String) : List Line :=
  match e.item with
  | some item =>
    (0, "for " ++ item ++ " in &" ++ e.param ++ " \x7b") ::
      (e.bind.lines 1 ++ [(1, text ++ ";"), (0, "\x7d")])
  | none => e.bind.lines 0 ++ [(0, text ++ ";")]

/-- Whether the entity is found where it is bound, if these names are visible. -/
def isClear (visible : List String) : Bool :=
  match e.item with
  | some _ => !visible.contains e.param
  | none => (e.bind.owned e.param).unshadowed visible

/-- The names that are visible behind the lines. -/
def behind (g : Gathering) (visible : List String) : List String :=
  match e.item with
  | some _ => visible
  | none => g.adds ++ (e.bind.declares ++ visible)

end EntityDraft

/-- The lines of all executions. -/
def Gathering.runLines (g : Gathering) (call : Execute) (es : List EntityDraft) : List Line :=
  g.start.map (fun text => (0, text ++ ";")) ++
    es.flatMap fun e => e.lines (g.line (call.text e.statement))

/-- Whether every entity is found where it is bound. -/
def areClear (g : Gathering) : List String → List EntityDraft → Bool
  | _, [] => true
  | visible, e :: es => e.isClear visible && areClear g (e.behind g visible) es

/-- The body of a method that writes entities. -/
structure EntityBody where
  /-- The expression for the object. -/
  object : String
  preparation : Program
  transaction : String
  gathering : Gathering
  execute : Execute
  entities : List EntityDraft

namespace EntityBody

variable (b : EntityBody)

def lines : List Line :=
  b.preparation.lines 0 ++
    (0, "let " ++ b.transaction ++ " = TransactionGuard::begin(&" ++ (b.object ++ ".db") ++ ")" ++
      ";") ::
    (b.gathering.runLines b.execute b.entities ++
      [(0, b.object ++ ".db" ++ ".set_transaction_successful()" ++ ";"),
        (0, "Ok(" ++ b.gathering.value ++ ")")])

/-- The names that are visible in front of the preparation. -/
def outer : List String := [b.object, "self"]

/-- The names that are visible in the transaction. -/
def opened : List String := b.transaction :: (b.preparation.declares ++ b.outer)

/-- The names that are visible in front of the first entity. -/
def front : List String := b.gathering.declares ++ b.opened

/-- Whether every entity is found where it is bound. -/
def unshadowed : Bool := areClear b.gathering b.front b.entities

end EntityBody

/-- An execution of a statement, with what was bound since the one before. -/
structure Execution (V : Type) where
  call : Execute
  source : Source
  binds : List (Cell V × Nat)

/-- What the writing of entities relies on: their fields, what a call returns that does not fail,
and the values in which this is gathered. -/
structure Database (V : Type) extends Runtime V where
  /-- The value of a field, by its path. -/
  field : V → String → V
  /-- What the last of some executions returns. -/
  answer : List (Execution V) → V
  unit : V
  zero : V
  add : V → V → V
  noRows : V
  push : V → V → V

/-- The local variables of a run and what was executed. -/
structure Progress (V : Type) where
  locals : Locals V
  done : List (Execution V) := []

section Meaning

variable {V : Type} (db : Database V) (arguments : String → V)

/-- What the executions return, one after the other. -/
def Database.answers (done : List (Execution V)) : List V := done.inits.tail.map db.answer

def Gathering.begin (ls : Locals V) : Gathering → Option (Locals V)
  | nothing | only _ => some ls
  | rows outcome param =>
    (ls.entity? arguments param).map fun _ => (outcome, .value db.noRows) :: ls
  | sum outcome => some ((outcome, .value db.zero) :: ls)

/-- Gathers what an execution returns. -/
def Gathering.keep (v : V) (ls : Locals V) : Gathering → Option (Locals V)
  | nothing => some ls
  | only outcome => some ((outcome, .value v) :: ls)
  | rows outcome _ => (ls.value? outcome).map fun all => ls.assign outcome (.value (db.push all v))
  | sum outcome => (ls.value? outcome).map fun total => ls.assign outcome (.value (db.add total v))

def Gathering.finish (ls : Locals V) : Gathering → Option V
  | nothing => some db.unit
  | only outcome | rows outcome _ | sum outcome => ls.value? outcome

/-- Executes a statement; what was bound to it is used up. -/
def Progress.execute (s : Progress V) (call : Execute) (statement : String) :
    Option (Progress V) := do
  let p ← s.locals.statement? statement
  return {
    locals := s.locals.assign statement (.statement { source := p.source })
    done := s.done ++ [⟨call, p.source, p.binds⟩] }

/-- The field of an owner that is read. -/
def fieldOf (owner read : String) : String := String.ofList (read.toList.drop (owner.length + 1))

/-- Binds an entity and executes the statement. There is no result where a name that is visible
hides the owner. -/
def EntityDraft.once (e : EntityDraft) (g : Gathering) (call : Execute) (visible : List String)
    (v : V) (s : Progress V) : Option (Progress V) :=
  if (e.bind.owned e.owner).unshadowed visible then do
    let bound ← e.bind.exec db.toRuntime (fun read => db.field v (fieldOf e.owner read)) s.locals
    let s ← Progress.execute ⟨bound, s.done⟩ call e.statement
    return { s with locals := ← g.keep db (db.answer s.done) s.locals }
  else none

/-- The same for each element, behind the one that is bound. -/
def EntityDraft.exec (e : EntityDraft) (g : Gathering) (call : Execute) (s : Progress V) :
    Option (Progress V) :=
  match e.item with
  | some item => do
    let v ← s.locals.entity? arguments e.param
    (db.items v).foldlM (fun s w => do
      let inner ← e.once db g call [] w { s with locals := (item, .value w) :: s.locals }
      return { inner with locals := s.locals.leave inner.locals }) s
  | none => e.once db g call s.locals.names (arguments e.param) s

namespace EntityBody

variable (b : EntityBody)

/-- Runs what follows the preparation. -/
def execWork (prepared : Locals V) : Option (List (Execution V) × V) := do
  let ls ← b.gathering.begin db arguments ((b.transaction, .pending) :: prepared)
  let s ← b.entities.foldlM (fun s e => e.exec db arguments b.gathering b.execute s) ⟨ls, []⟩
  return (s.done, ← b.gathering.finish db s.locals)

/-- Runs a body: what it executes and what it returns. There is no result where the code would not
compile. -/
def exec : Option (List (Execution V) × V) := do
  let outer : Locals V := b.outer.map fun name => (name, .pending)
  let prepared ← b.preparation.exec db.toRuntime arguments outer
  b.execWork db arguments prepared

end EntityBody

end Meaning

end Statement

namespace Delivery.WriteResult

open Code Statement

/-- The call that executes a statement. -/
def execute (r : WriteResult) : Execute :=
  if r.returns.isUnit then .plain else if r.kind = .insert then .insert else .updateDelete

theorem call_eq (r : WriteResult) (statement : String) :
    r.call statement = r.execute.text statement := by
  unfold call execute
  split
  · rfl
  · split <;> rfl

/-- How the outcomes are gathered, in a variable of the given name. -/
def gathering (r : WriteResult) (outcome : String) (entities : List EntityDraft) : Gathering :=
  if r.returns.isUnit then .nothing
  else
    match r.kind, entities with
    | .insert, [e] => if e.item.isNone then .only outcome else .rows outcome e.param
    | _, _ => .sum outcome

/-- What is gathered, by the entities and the type that is returned. -/
theorem gathering_cases (r : WriteResult) (outcome : String) (es : List EntityDraft) :
    r.gathering outcome es = .nothing ∨
    ¬r.returns.isUnit ∧
      ((∃ e, es = [e] ∧ e.item = none ∧ r.gathering outcome es = .only outcome) ∨
        (∃ e, es = [e] ∧ e.item.isSome ∧ r.gathering outcome es = .rows outcome e.param) ∨
        r.gathering outcome es = .sum outcome) := by
  unfold gathering
  by_cases hunit : r.returns.isUnit
  · exact .inl (if_pos hunit)
  · refine .inr ⟨hunit, ?_⟩
    simp only [hunit, Bool.false_eq_true, if_false]
    match r.kind, es with
    | .insert, [e] =>
      cases hitem : e.item with
      | none => exact .inl ⟨e, rfl, hitem, by simp [hitem]⟩
      | some item => exact .inr (.inl ⟨e, rfl, by simp [hitem], by simp [hitem]⟩)
    | .insert, [] | .insert, _ :: _ :: _ => exact .inr (.inr rfl)
    | .select, _ | .update, _ | .delete, _ | .unknown, _ => exact .inr (.inr rfl)

/-- The name of the variable for the outcome, if there is one. -/
def draftOutcome (r : WriteResult) : Draft String :=
  if r.returns.isUnit then pure "" else Draft.fresh (if r.kind = .insert then "result" else "total")

end Delivery.WriteResult

namespace Code

/-- Adds lines at the current depth. -/
def Block.put (b : Block) (xs : List Line) : Block :=
  { b with lines := b.lines ++ sunken b.depth xs }

/-- Writes lines at the current depth. -/
def Emit.put (xs : List Line) : Emit Unit := onBlock (·.put xs)

namespace Emit

theorem put_nil : put [] = pure () := by
  funext s
  exact Prod.ext rfl (congrArg (Scope.mk _ · _ _) (by simp [Block.put, sunken]))

theorem put_append (xs ys : List Line) : put (xs ++ ys) = (do put xs; put ys) := by
  funext s
  exact Prod.ext rfl (congrArg (Scope.mk _ · _ _) (by simp [Block.put, sunken]))

theorem statement_eq (text : String) : statement text = put [(0, text ++ ";")] := rfl

theorem forM_put {α : Type} (as : List α) (f : α → List Line) :
    as.forM (fun a => put (f a)) = put (as.flatMap f) := by
  induction as with
  | nil => exact put_nil.symm
  | cons a as ih =>
    rw [List.flatMap_cons, put_append, ← ih]
    rfl

end Emit

end Code

namespace Statement

open Code Delivery

theorem EntityDraft.writeEach_eq (e : EntityDraft) (text : String) :
    e.code.writeEach text = Emit.put (e.lines text) := by
  have hlines : ∀ depth k, (e.bind.lines k).map (fun x : Line => (depth + x.1, x.2)) =
      e.bind.lines (depth + k) := fun depth k => (e.bind.lines_add depth k).symm
  funext s
  refine Prod.ext rfl ?_
  unfold EntityStatement.writeEach EntityDraft.lines EntityDraft.code
  cases e.item with
  | none =>
    refine congrArg (Scope.mk _ · _ _) ?_
    simp [Block.put, Block.splice, Block.append, sunken, Block.statement, Block.line, hlines]
  | some item =>
    refine congrArg (Scope.mk _ · _ _) ?_
    simp [Block.put, Block.splice, Block.append, sunken, Block.statement, Block.line, Block.enter,
      Block.leave, Block.leaveWith, Block.deeper, Block.shallower, hlines]

section Emission

variable (r : WriteResult)

/-- The executions for all entities, by what is done with each call. -/
theorem forM_writeEach (text : String → String) (es : List EntityDraft) :
    ((es.map EntityDraft.code).forM fun e => e.writeEach (text (r.call e.statement))) =
      Emit.put (es.flatMap fun e => e.lines (text (r.execute.text e.statement))) := by
  rw [← Emit.forM_put]
  induction es with
  | nil => rfl
  | cons e es ih =>
    have hfirst : e.code.writeEach (text (r.call e.code.statement)) =
        Emit.put (e.lines (text (r.execute.text e.statement))) := by
      rw [e.writeEach_eq, r.call_eq]
      rfl
    exact congrArg₂ (fun first rest : Emit Unit => first >>= fun _ => rest) hfirst ih

/-- The executions for the only parameter of an insert. -/
theorem writeOnly_eq (outcome : String) (e : EntityDraft) : (do
    if e.code.item.isNone then
      Emit.splice e.code.bind
      Emit.statement ("let " ++ outcome ++ " = " ++ r.call e.code.statement)
    else
      Emit.statement
        ("let mut " ++ outcome ++ " = Vec::with_capacity(" ++ e.code.param ++ ".len())")
      e.code.writeEach (outcome ++ ".push(" ++ r.call e.code.statement ++ ")")
    return outcome) = (do
    let g := if e.item.isNone then Gathering.only outcome else .rows outcome e.param
    Emit.put (g.runLines r.execute [e])
    return g.value) := by
  rw [r.call_eq]
  cases hitem : e.item with
  | none =>
    have hcode : e.code.item = none := hitem
    have heach := e.writeEach_eq ("let " ++ outcome ++ " = " ++ r.execute.text e.code.statement)
    rw [EntityStatement.writeEach, hcode] at heach
    simp only [hcode, Gathering.runLines, Gathering.start, Option.isNone_none, if_true,
      List.map_nil, List.nil_append, List.flatMap_cons, List.flatMap_nil, List.append_nil]
    rw [← bind_assoc]
    exact congrArg (fun first : Emit Unit => first >>= fun _ => pure outcome) heach
  | some item =>
    have hcode : e.code.item = some item := hitem
    simp only [hcode, Gathering.runLines, Gathering.start, Option.isNone_some, Bool.false_eq_true,
      if_false, List.map_cons, List.map_nil, List.flatMap_cons, List.flatMap_nil, List.append_nil,
      Emit.put_append, e.writeEach_eq, bind_assoc]
    rfl

theorem writeRuns_eq (es : List EntityDraft) : r.writeRuns (es.map EntityDraft.code) = (do
    let outcome ← r.draftOutcome.realize
    Emit.put ((r.gathering outcome es).runLines r.execute es)
    return (r.gathering outcome es).value) := by
  have hsum : ∀ (outcome : String) (es : List EntityDraft), (do
      Emit.statement ("let mut " ++ outcome ++ ": i32 = 0")
      (es.map EntityDraft.code).forM fun e => e.writeEach (outcome ++ " += " ++ r.call e.statement)
      return outcome) = (do
      Emit.put ((Gathering.sum outcome).runLines r.execute es)
      return outcome) := by
    intro outcome es
    rw [forM_writeEach r (outcome ++ " += " ++ ·), Emit.statement_eq, Gathering.runLines,
      Emit.put_append, bind_assoc]
    rfl
  unfold WriteResult.writeRuns WriteResult.draftOutcome WriteResult.gathering
  by_cases hunit : r.returns.isUnit
  · simp only [hunit, if_true]
    rw [forM_writeEach r fun call => call]
    simp [Gathering.runLines, Gathering.start, Gathering.line, Gathering.value]
  · simp only [hunit, Bool.false_eq_true, if_false, Draft.realize_fresh]
    refine congrArg (_ >>= ·) (funext fun outcome => ?_)
    match r.kind, es with
    | .insert, [e] => exact writeOnly_eq r outcome e
    | .insert, [] | .insert, _ :: _ :: _ | .select, _ | .update, _ | .delete, _ | .unknown, _ =>
      exact hsum outcome _

end Emission

/-- The body that writes entities and returns what is declared, written with these names. -/
def EntityWrite.body (w : EntityWrite) (r : WriteResult) (t : Naming) : EntityBody :=
  let x := w.draft t
  let transaction := Draft.fresh "transaction" x.naming
  let outcome := r.draftOutcome transaction.naming
  { object := x.naming.receiver
    preparation := x.program
    transaction := transaction.value
    gathering := r.gathering outcome.value x.value
    execute := r.execute
    entities := x.value }

theorem writeRun_eq (w : EntityWrite) (r : WriteResult) : WriteBinder.writeRun r w.prepare = (do
    let es ← w.draft.realize
    let object ← Emit.db
    let transaction ← (Draft.fresh "transaction").realize
    Emit.statement ("let " ++ transaction ++ " = TransactionGuard::begin(&" ++ object ++ ")")
    let outcome ← r.draftOutcome.realize
    Emit.put ((r.gathering outcome es).runLines r.execute es)
    Emit.commit object
    Emit.line ("Ok(" ++ (r.gathering outcome es).value ++ ")")) := by
  rw [WriteBinder.writeRun, ← w.realize_draft]
  simp only [map_eq_pure_bind, bind_assoc, pure_bind, WriteResult.write, writeRuns_eq,
    Emit.beginTransaction, Draft.realize_fresh]

theorem block_writeRun (w : EntityWrite) (r : WriteResult) (s : Scope) :
    ((WriteBinder.writeRun r w.prepare).run s).2.block =
      s.block.put (w.body r s.naming).lines := by
  have houtcome : ∀ t, (r.draftOutcome t).program = .done := fun t => by
    unfold WriteResult.draftOutcome
    split <;> rfl
  have hprogram : s.block.append (w.draft s.naming).program =
      s.block.put ((w.draft s.naming).program.lines 0) := by
    have hadd := (w.draft s.naming).program.lines_add s.block.depth 0
    rw [Nat.add_zero] at hadd
    rw [Block.append, Block.put, sunken, hadd]
  let b := w.body r s.naming
  rw [writeRun_eq]
  change (((((((s.block.append (w.draft s.naming).program).append .done).statement _).append
    (r.draftOutcome _).program).put (b.gathering.runLines b.execute b.entities)).statement _).line
      _) = _
  rw [houtcome, hprogram]
  simp only [Block.put, Block.append, Block.statement, Block.line, Program.lines, sunken,
    EntityBody.lines, b, List.map_append, List.map_cons, List.map_nil, List.append_nil,
    List.append_assoc, List.cons_append, List.nil_append, Nat.add_zero]
  rfl

theorem receiver_draft (w : EntityWrite) (t : Naming) :
    (w.draft t).naming.receiver = t.receiver := by
  obtain ⟨-, -, hreceiver, -⟩ :=
    w.only_prepare (k := 0) ⟨t.members, {}, t.locals, t.receiver⟩ 0 rfl rfl
  rwa [← w.realize_draft] at hreceiver

theorem receiver_writeRun (w : EntityWrite) (r : WriteResult) (s : Scope) :
    ((WriteBinder.writeRun r w.prepare).run s).2.receiver = s.receiver := by
  have houtcome : ∀ t, (r.draftOutcome t).naming.receiver = t.receiver := fun t => by
    unfold WriteResult.draftOutcome
    split <;> rfl
  rw [writeRun_eq]
  exact (houtcome _).trans (receiver_draft w s.naming)

/-- What is written for a write of entities is such a body. -/
theorem emits_body (w : EntityWrite) (r : WriteResult) (object : String) :
    Emit.Emits object 0 0 (Emit.noting (WriteBinder.writeRun r w.prepare)) fun c xs =>
      ∃ t : Naming, t.members = c ∧ t.receiver = object ∧ xs = (w.body r t).lines := by
  intro s base hobject hdepth
  refine ⟨(w.body r s.naming).lines, ?_, (receiver_writeRun w r s).trans hobject, s.naming, rfl,
    hobject, rfl⟩
  refine (block_writeRun w r s).trans ?_
  rw [Block.put, hdepth]
  rfl

end Statement

end DataAccess
