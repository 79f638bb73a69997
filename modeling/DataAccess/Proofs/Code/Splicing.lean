import DataAccess.Proofs.Code.Lines

/-!
A block that is written apart and then spliced in is the block that is written in place. Writing in
place differs in what stands before and in the depth, and neither matters to a script that closes no
control flow but its own.
-/

set_option autoImplicit false

namespace DataAccess.Code

/-- The block with what is written after it, counted from its depth. -/
def Block.within (outer inner : Block) : Block :=
  ⟨outer.lines ++ sunken outer.depth inner.lines, outer.depth + inner.depth⟩

namespace Block

variable (outer inner : Block)

@[simp] theorem depth_within : (outer.within inner).depth = outer.depth + inner.depth := rfl

@[simp] theorem within_empty : outer.within {} = outer := by simp [within, sunken]

theorem splice_eq_within (h : inner.depth = 0) : outer.splice inner = outer.within inner := by
  simp [within, splice, sunken, h]

theorem within_line (text : String) :
    (outer.within inner).line text = outer.within (inner.line text) := by
  simp [within, line, sunken]

theorem within_deeper : (outer.within inner).deeper = outer.within inner.deeper := by
  simp [within, deeper, Nat.add_assoc]

/-- At depth zero the closing brace would belong to the block around it. -/
theorem within_shallower (h : 0 < inner.depth) :
    (outer.within inner).shallower = outer.within inner.shallower := by
  simp only [within, shallower, Block.mk.injEq, true_and]
  omega

theorem within_splice (code : Block) :
    (outer.within inner).splice code = outer.within (inner.splice code) := by
  simp [within, splice, sunken, Nat.add_assoc]

theorem render_within (base : Nat) :
    (outer.within inner).render base = outer.render base ++ inner.render (base + outer.depth) := by
  simp [render, within, sunken, Function.comp_def, Nat.add_assoc]

end Block

def Scope.within (outer : Block) (s : Scope) : Scope := { s with block := outer.within s.block }

theorem Scope.within_empty (s : Scope) : Scope.within s.block { s with block := {} } = s := by
  simp [Scope.within]

/-- A call of the block builder. -/
inductive BlockCall
  | line (text : String)
  | statement (text : String)
  | comment (text : String)
  | enter (header : String)
  | next (header : String)
  | leaveWith (tail : String)
  | splice (code : Block)

namespace BlockCall

def edit : BlockCall → Block → Block
  | line text => (·.line text)
  | statement text => (·.statement text)
  | comment text => (·.comment text)
  | enter header => (·.enter header)
  | next header => (·.next header)
  | leaveWith tail => (·.leaveWith tail)
  | splice code => (·.splice code)

/-- The control flows that are open after the call; none if it closes one that is not open. -/
def opened : BlockCall → Nat → Option Nat
  | enter _, n => some (n + 1)
  | next _, n + 1 => some (n + 1)
  | next _, 0 => none
  | leaveWith _, n + 1 => some n
  | leaveWith _, 0 => none
  | _, n => some n

variable {call : BlockCall} {b : Block} {n l : Nat}

theorem opened_next {header : String} : (next header).opened n = some l ↔ 0 < n ∧ l = n := by
  cases n <;> simp [opened, eq_comm]

theorem opened_leaveWith {tail : String} : (leaveWith tail).opened n = some l ↔ n = l + 1 := by
  cases n <;> simp [opened]

theorem depth_edit (h : call.opened b.depth = some l) : (call.edit b).depth = l := by
  cases call with
  | next header =>
    obtain ⟨hopen, rfl⟩ := opened_next.1 h
    exact Nat.sub_add_cancel hopen
  | leaveWith tail => simp [edit, Block.depth_leaveWith, opened_leaveWith.1 h]
  | _ => exact Option.some.inj h

theorem edit_within (outer : Block) (h : call.opened b.depth = some l) :
    call.edit (outer.within b) = outer.within (call.edit b) := by
  cases call with
  | next header =>
    have hopen := (opened_next.1 h).1
    simp only [edit, Block.next, Block.within_shallower outer b hopen, Block.within_line,
      Block.within_deeper]
  | leaveWith tail =>
    have hopen : 0 < b.depth := by simp [opened_leaveWith.1 h]
    simp only [edit, Block.leaveWith, Block.within_shallower outer b hopen, Block.within_line]
  | enter header => simp only [edit, Block.enter, Block.within_line, Block.within_deeper]
  | splice code => exact Block.within_splice outer b code
  | line text => exact Block.within_line outer b text
  | statement text => exact Block.within_line outer b (text ++ ";")
  | comment text => exact Block.within_line outer b ("// " ++ text)

end BlockCall

/-- A script that writes into a scope. What follows a request may depend on the answer, and what
follows a fork on the block that was written there. -/
inductive Script : Type → Type 1
  | done {α : Type} (a : α) : Script α
  | edit {α : Type} (call : BlockCall) (rest : Script α) : Script α
  | fresh {α : Type} (wish : String) (rest : String → Script α) : Script α
  | receiver {α : Type} (rest : String → Script α) : Script α
  | members {α β : Type} (act : StateM ClassMembers β) (rest : β → Script α) : Script α
  | forkAs {α β : Type} (object : String) (body : Script β) (rest : β → Block → Script α) : Script α

namespace Script

variable {α β : Type}

def run : {α : Type} → Script α → Emit α
  | _, done a => pure a
  | _, edit call rest => do Emit.onBlock call.edit; rest.run
  | _, fresh wish rest => do (rest (← Emit.fresh wish)).run
  | _, receiver rest => do (rest (← Emit.receiver)).run
  | _, members act rest => do (rest (← Emit.onMembers act)).run
  | _, forkAs object body rest => do
    let (answer, code) ← Emit.forkAs object body.run
    (rest answer code).run

/-- The control flows that the script leaves open when it runs from the scope with `n` of them open;
none if it closes one too many. A fork has a block of its own and does not count. -/
def opened : {α : Type} → Script α → Scope → Nat → Option Nat
  | _, done _, _, n => some n
  | _, edit call rest, s, n =>
    (call.opened n).bind (rest.opened { s with block := call.edit s.block })
  | _, fresh wish rest, s, n =>
    let (name, s) := (Emit.fresh wish).run s
    (rest name).opened s n
  | _, receiver rest, s, n => (rest s.receiver).opened s n
  | _, members act rest, s, n =>
    let (answer, s) := (Emit.onMembers act).run s
    (rest answer).opened s n
  | _, forkAs object body rest, s, n =>
    let ((answer, code), s) := (Emit.forkAs object body.run).run s
    (rest answer code).opened s n

/-- The script closes what it opens and nothing else. -/
def Balanced (p : Script α) (s : Scope) : Prop := p.opened s 0 = some 0

instance (p : Script α) (s : Scope) : Decidable (p.Balanced s) :=
  inferInstanceAs (Decidable (_ = _))

/-- The answers that a script gets do not depend on what is written. -/
theorem opened_block (p : Script α) (s : Scope) (b : Block) (n : Nat) :
    p.opened { s with block := b } n = p.opened s n := by
  induction p generalizing s b n with
  | done a => rfl
  | edit call rest ih =>
    exact congrArg (call.opened n).bind
      (funext fun m => (ih s (call.edit b) m).trans (ih s (call.edit s.block) m).symm)
  | fresh wish rest ih => exact ih _ ((Emit.fresh wish).run s).2 b n
  | receiver rest ih => exact ih _ s b n
  | members act rest ih => exact ih _ ((Emit.onMembers act).run s).2 b n
  | forkAs object body rest _ ih => exact ih _ _ ((Emit.forkAs object body.run).run s).2 b n

theorem receiver_run (p : Script α) (s : Scope) : (p.run.run s).2.receiver = s.receiver := by
  induction p generalizing s with
  | done a => rfl
  | edit call rest ih => exact ih { s with block := call.edit s.block }
  | fresh wish rest ih => exact ih _ ((Emit.fresh wish).run s).2
  | receiver rest ih => exact ih _ s
  | members act rest ih => exact ih _ ((Emit.onMembers act).run s).2
  | forkAs object body rest _ ih => exact ih _ _ ((Emit.forkAs object body.run).run s).2

/-- A script that closes no foreign control flow ends at the depth that it counts, and inside another
block it writes the same. -/
theorem run_within (p : Script α) (outer : Block) (s : Scope) (l : Nat)
    (h : p.opened s s.block.depth = some l) :
    p.run.run (s.within outer) = ((p.run.run s).1, (p.run.run s).2.within outer) ∧
      (p.run.run s).2.block.depth = l := by
  induction p generalizing s with
  | done a => exact ⟨rfl, Option.some.inj h⟩
  | edit call rest ih =>
    obtain ⟨n, hcall, hrest⟩ := Option.bind_eq_some_iff.1 h
    let t : Scope := { s with block := call.edit s.block }
    have ht : rest.opened t t.block.depth = some l := by
      rw [BlockCall.depth_edit hcall]
      exact hrest
    have hstep : (Emit.onBlock call.edit).run (s.within outer) = ((), t.within outer) :=
      congrArg (fun b => ((), ({ s with block := b } : Scope))) (BlockCall.edit_within outer hcall)
    have hrun : (edit call rest).run.run (s.within outer) = rest.run.run (t.within outer) :=
      congrArg (fun x : Unit × Scope => rest.run.run x.2) hstep
    rw [hrun]
    exact ih t ht
  | fresh wish rest ih => exact ih _ ((Emit.fresh wish).run s).2 h
  | receiver rest ih => exact ih _ s h
  | members act rest ih => exact ih _ ((Emit.onMembers act).run s).2 h
  | forkAs object body rest _ ih => exact ih _ _ ((Emit.forkAs object body.run).run s).2 h

/-- A balanced script that runs in a fork of which the code is spliced in leaves the scope that it
leaves when it runs in place: the block with its depth, the counts of names, the members. Either way
the depth is that of before, and at every indentation the text of the script is that of the fork,
indented by this depth. -/
theorem splice_fork_eq_run (p : Script α) (s : Scope) (h : p.Balanced s) :
    (do
      let (a, code) ← Emit.forkAs (← Emit.receiver) p.run
      Emit.splice code
      return a : Emit α).run s = p.run.run s ∧
    (p.run.run s).2.block.depth = s.block.depth ∧
    ∀ base, (p.run.run s).2.block.render base = s.block.render base ++
      ((Emit.forkAs s.receiver p.run).run s).1.2.render (base + s.block.depth) := by
  let apart : Scope := { s with block := {} }
  let code := (p.run.run apart).2.block
  have hopened : p.opened apart apart.block.depth = some 0 := (opened_block p s {} 0).trans h
  obtain ⟨hwithin, hdepth⟩ := run_within p s.block apart 0 hopened
  rw [Scope.within_empty] at hwithin
  have hblock : (p.run.run s).2.block = s.block.within code := by
    rw [hwithin]
    rfl
  refine ⟨?_, ?_, fun base => ?_⟩
  · have hspliced : (p.run.run s).2 = { (p.run.run apart).2 with
        block := s.block.splice code, receiver := s.receiver } := by
      rw [Block.splice_eq_within _ _ hdepth, hwithin, ← receiver_run p apart]
      rfl
    exact Prod.ext (congrArg Prod.fst hwithin).symm hspliced.symm
  · rw [hblock, Block.depth_within, hdepth, Nat.add_zero]
  · rw [hblock, Block.render_within]
    rfl

/-- A loop over what a shared field holds, with a branch that is written in a fork of its own. -/
def eachShared : Script String :=
  members (ClassMembers.field ⟨"users", "query:users", pure ("Users", "Users::new()")⟩) fun users =>
  fresh "user" fun user =>
  receiver fun object =>
  edit (.enter ("for " ++ user ++ " in &" ++ object ++ "." ++ users)) <|
  forkAs object
    (fresh "user" fun copy =>
      edit (.enter ("if let Some(" ++ copy ++ ") = " ++ user)) <|
      edit (.next "else") <|
      edit (.leaveWith "") <|
      done copy) fun copy branch =>
  edit (.splice branch) <|
  edit (.statement ("drop(" ++ copy ++ ")")) <|
  edit (.leaveWith "") <|
  done user

/-- In a loop, after another variable of that name. -/
def insideLoop : Scope :=
  { members := { className := "UsersDao" }, block := ⟨[(0, "loop \x7b")], 1⟩, locals := [("_user", 1)] }

theorem splice_fork_eq_run_eachShared :
    eachShared.Balanced insideLoop ∧
      (do
        let (a, code) ← Emit.forkAs (← Emit.receiver) eachShared.run
        Emit.splice code
        return a : Emit String).run insideLoop = eachShared.run.run insideLoop ∧
      (eachShared.run.run insideLoop).2.block.depth = 1 ∧
      ∀ base, (eachShared.run.run insideLoop).2.block.render base = insideLoop.block.render base ++
        ((Emit.forkAs "self" eachShared.run).run insideLoop).1.2.render (base + 1) := by
  have h : eachShared.Balanced insideLoop := by decide
  exact ⟨h, splice_fork_eq_run eachShared insideLoop h⟩

end Script

end DataAccess.Code
