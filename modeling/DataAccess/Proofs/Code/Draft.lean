import DataAccess.Proofs.Code.LocalNames
import DataAccess.Proofs.Code.Shadowing

/-!
Drafts: writing a body as a program instead of as lines. A draft takes names and members as the
writing of lines does, and `realize` turns it into that.
-/

set_option autoImplicit false

namespace DataAccess.Code

open ClassMembers (numbered)
open Emit (localBase asked)

/-- What code is written with, the lines so far apart. -/
structure Naming where
  members : ClassMembers
  locals : List (String × Nat) := []
  receiver : String := "self"

def Scope.naming (s : Scope) : Naming := ⟨s.members, s.locals, s.receiver⟩

structure Drafted (α : Type) where
  value : α
  program : Program
  naming : Naming

/-- The scope in which the program of a draft was written behind the lines of another scope. -/
def Drafted.scope {α : Type} (x : Drafted α) (s : Scope) : Scope where
  members := x.naming.members
  block := s.block.append x.program
  locals := x.naming.locals
  receiver := x.naming.receiver

def Draft (α : Type) : Type := Naming → Drafted α

namespace Draft

instance : Monad Draft where
  pure a := fun t => ⟨a, .done, t⟩
  bind d f := fun t =>
    let x := d t
    let y := f x.value x.naming
    ⟨y.value, x.program.append y.program, y.naming⟩

/-- Writes the lines of a draft. -/
def realize {α : Type} (d : Draft α) : Emit α := fun s => ((d s.naming).value, (d s.naming).scope s)

def step (i : Instr) : Draft Unit := fun t => ⟨(), .step i .done, t⟩

def fresh (wish : String) : Draft String := fun t =>
  ⟨numbered (localBase wish) (asked t.locals (localBase wish)), .done,
    { t with locals := countRequest (localBase wish) t.locals }⟩

def receiver : Draft String := fun t => ⟨t.receiver, .done, t⟩

def onMembers {α : Type} (act : StateM ClassMembers α) : Draft α := fun t =>
  ⟨(act.run t.members).1, .done, { t with members := (act.run t.members).2 }⟩

def each (item : String) (x : Var) (body : Draft Unit) : Draft Unit := fun t =>
  ⟨(), .each item x (body t).program .done, { (body t).naming with receiver := t.receiver }⟩

def select (x : Var) (absent : Instr) (present : String) (found : Instr) : Draft Unit := fun t =>
  ⟨(), .select x absent present found .done, t⟩

def inspect (x : Var) (absent : Instr) (present : String) (body : Draft Unit) : Draft Unit := fun t =>
  ⟨(), .inspect x absent present (body t).program .done,
    { (body t).naming with receiver := t.receiver }⟩

/-- A body that is written apart, for a place that is not known yet. -/
def apart (body : Draft Unit) : Draft Program := fun t =>
  ⟨(body t).program, .done, { (body t).naming with receiver := t.receiver }⟩

section Realize

variable {α β : Type}

/-- A draft without code writes nothing. -/
theorem scope_of_done {x : Drafted α} {s : Scope} (h : x.program = .done) :
    x.scope s = { s with
      members := x.naming.members, locals := x.naming.locals, receiver := x.naming.receiver } := by
  simp [Drafted.scope, Block.append, h, Program.lines]

@[simp] theorem realize_pure (a : α) : realize (pure a) = pure a := by
  funext s
  exact Prod.ext rfl (scope_of_done rfl)

@[simp] theorem realize_bind (d : Draft α) (f : α → Draft β) :
    realize (d >>= f) = realize d >>= fun a => realize (f a) := by
  funext s
  refine Prod.ext rfl ?_
  change (Drafted.mk _ ((d s.naming).program.append _) _).scope s = _
  simp only [Drafted.scope, Block.append, Program.lines_append, ← List.append_assoc]
  rfl

@[simp] theorem realize_step (i : Instr) : realize (step i) = Emit.statement i.text := rfl

@[simp] theorem realize_fresh (wish : String) : realize (fresh wish) = Emit.fresh wish := by
  funext s
  refine Eq.trans ?_ (Emit.fresh_run wish s).symm
  exact Prod.ext rfl (scope_of_done rfl)

@[simp] theorem realize_receiver : realize receiver = Emit.receiver := by
  funext s
  exact Prod.ext rfl (scope_of_done rfl)

@[simp] theorem realize_onMembers (act : StateM ClassMembers α) :
    realize (onMembers act) = Emit.onMembers act := by
  funext s
  exact Prod.ext rfl (scope_of_done rfl)

/-- The lines of a body, spliced into a control flow. -/
theorem splice_append (b : Block) (p : Program) :
    b.splice (({} : Block).append p) = b.append p := by
  have hlines := p.lines_add b.depth 0
  rw [Nat.add_zero] at hlines
  simp [Block.splice, Block.append, hlines]

theorem append_each (b : Block) (item : String) (x : Var) (body : Program) :
    b.append (.each item x body .done) =
      ((b.enter ("for " ++ item ++ " in " ++ x.name ++ ".iter().cloned()")).splice
        (({} : Block).append body)).leave := by
  rw [splice_append]
  simp [Block.append, Program.lines, Block.enter, Block.leave, Block.leaveWith, Block.line,
    Block.deeper, Block.shallower]

theorem append_select (b : Block) (x : Var) (absent found : Instr) (present : String) :
    b.append (.select x absent present found .done) =
      (((b.enter ("match &" ++ x.name)).line ("None => " ++ absent.text ++ ",")).line
        ("Some(" ++ present ++ ") => " ++ found.text ++ ",")).leave := by
  simp [Block.append, Program.lines, Block.enter, Block.leave, Block.leaveWith, Block.line,
    Block.deeper, Block.shallower]

theorem append_inspect (b : Block) (x : Var) (absent : Instr) (present : String)
    (body : Program) :
    b.append (.inspect x absent present body .done) =
      ((((b.enter ("match &" ++ x.name)).line ("None => " ++ absent.text ++ ",")).enter
        ("Some(" ++ present ++ ") =>")).splice (({} : Block).append body)).leave.leave := by
  rw [splice_append]
  simp [Block.append, Program.lines, Block.enter, Block.leave, Block.leaveWith, Block.line,
    Block.deeper, Block.shallower]

@[simp] theorem realize_each (item : String) (x : Var) (body : Draft Unit) :
    realize (each item x body) = (do
      let code ← Emit.fork (realize body)
      Emit.enter ("for " ++ item ++ " in " ++ x.name ++ ".iter().cloned()")
      Emit.splice code
      Emit.leave) := by
  funext s
  exact Prod.ext rfl (congrArg (Scope.mk _ · _ _) (append_each ..))

@[simp] theorem realize_select (x : Var) (absent found : Instr) (present : String) :
    realize (select x absent present found) = (do
      Emit.enter ("match &" ++ x.name)
      Emit.line ("None => " ++ absent.text ++ ",")
      Emit.line ("Some(" ++ present ++ ") => " ++ found.text ++ ",")
      Emit.leave) := by
  funext s
  exact Prod.ext rfl (congrArg (Scope.mk _ · _ _) (append_select ..))

@[simp] theorem realize_inspect (x : Var) (absent : Instr) (present : String) (body : Draft Unit) :
    realize (inspect x absent present body) = (do
      let code ← Emit.fork (realize body)
      Emit.enter ("match &" ++ x.name)
      Emit.line ("None => " ++ absent.text ++ ",")
      Emit.enter ("Some(" ++ present ++ ") =>")
      Emit.splice code
      Emit.leave
      Emit.leave) := by
  funext s
  exact Prod.ext rfl (congrArg (Scope.mk _ · _ _) (append_inspect ..))

@[simp] theorem realize_apart (body : Draft Unit) :
    (({} : Block).append ·) <$> realize (apart body) = Emit.fork (realize body) := by
  funext s
  exact Prod.ext rfl (scope_of_done rfl)

@[simp] theorem realize_forM (as : List β) (f : β → Draft Unit) :
    realize (forM as f) = forM as fun a => realize (f a) := by
  induction as with
  | nil => exact realize_pure ()
  | cons a as ih => simp only [List.forM_cons, realize_bind, ih]

end Realize

end Draft

/-- The names that the preparation of a statement asks for. -/
def preparationWishes : List String :=
  ["statement", "stmt", "sql", "string_builder", "input_size", "arg_count", "arg_index", "item",
    "tmp", "value", "converted"]

namespace Naming

/-- A name that was given to a request of the preparation of a statement. -/
def Issued (t : Naming) (n : String) : Prop :=
  ∃ wish ∈ preparationWishes, ∃ k < asked t.locals (localBase wish), n = numbered (localBase wish) k

/-- Names that were given stay given. -/
def Extends (t t' : Naming) : Prop := ∀ n, t.Issued n → t'.Issued n

/-- A text that does not end in a digit is no numbered form of another one. -/
theorem ne_numbered {text : String} (htext : text.toList.getLast?.any Char.isDigit = false)
    (base : String) {k : Nat} (hk : 0 < k) : text ≠ numbered base k := by
  intro h
  have hlast := congrArg (fun x : String => x.toList.getLast?) h
  have hdigits : (toString k).toList ≠ [] := by simp [Nat.toString_eq_repr]
  simp only [toList_numbered_pos hk] at hlast
  rw [List.getLast?_append_of_ne_nil _ (by simp), List.getLast?_cons_of_ne_nil hdigits] at hlast
  obtain ⟨c, hc⟩ : ∃ c, (toString k).toList.getLast? = some c :=
    ⟨_, List.getLast?_eq_some_getLast hdigits⟩
  have hdigit := isDigit_of_mem_toString (List.mem_of_getLast? hc)
  rw [hlast.trans hc, Option.any_some, hdigit] at htext
  cases htext

theorem localBase_ne_numbered {wish : String} (hw : wish ∈ preparationWishes) (base : String)
    {k : Nat} (hk : 0 < k) : localBase wish ≠ numbered base k := by
  have hwishes : ∀ w ∈ preparationWishes,
      (localBase w).toList.getLast?.any Char.isDigit = false := by decide
  exact ne_numbered (hwishes wish hw) base hk

theorem not_issued_fresh {wish : String} (hw : wish ∈ preparationWishes) (t : Naming) :
    ¬t.Issued (Draft.fresh wish t).value := by
  rintro ⟨other, hother, k, hk, h⟩
  rcases numbered_eq_iff.1 h with ⟨hbase, hn⟩ | ⟨-, hpos, hbase⟩ | ⟨-, hpos, hbase⟩
  · rw [hbase] at hn
    omega
  · exact localBase_ne_numbered hw _ hpos hbase
  · exact localBase_ne_numbered hother _ hpos hbase

theorem extends_fresh (wish : String) (t : Naming) : t.Extends (Draft.fresh wish t).naming := by
  rintro n ⟨other, hother, k, hk, h⟩
  refine ⟨other, hother, k, ?_, h⟩
  change k < asked (countRequest _ t.locals) _
  rw [Emit.asked_countRequest]
  omega

theorem issued_fresh {wish : String} (hw : wish ∈ preparationWishes) (t : Naming) :
    (Draft.fresh wish t).naming.Issued (Draft.fresh wish t).value := by
  refine ⟨wish, hw, asked t.locals (localBase wish), ?_, rfl⟩
  change _ < asked (countRequest _ t.locals) _
  rw [Emit.asked_countRequest]
  simp

end Naming

/-- A draft under which names that were given stay given. -/
def Draft.Extends {α : Type} (d : Draft α) : Prop := ∀ t : Naming, t.Extends (d t).naming

namespace Draft

variable {α β : Type}

theorem extends_pure (a : α) : (pure a : Draft α).Extends := fun _ _ hn => hn

theorem extends_step (i : Instr) : (step i).Extends := fun _ _ hn => hn

theorem extends_fresh (wish : String) : (fresh wish).Extends := Naming.extends_fresh wish

theorem extends_receiver : receiver.Extends := fun _ _ hn => hn

theorem extends_onMembers (act : StateM ClassMembers α) : (onMembers act).Extends :=
  fun _ _ hn => hn

theorem extends_select (x : Var) (absent found : Instr) (present : String) :
    (select x absent present found).Extends := fun _ _ hn => hn

theorem Extends.each {body : Draft Unit} (h : body.Extends) (item : String) (x : Var) :
    (each item x body).Extends := fun t n hn => h t n hn

theorem Extends.inspect {body : Draft Unit} (h : body.Extends) (x : Var) (absent : Instr)
    (present : String) : (inspect x absent present body).Extends := fun t n hn => h t n hn

theorem Extends.apart {body : Draft Unit} (h : body.Extends) : (apart body).Extends :=
  fun t n hn => h t n hn

theorem Extends.bind {d : Draft α} {f : α → Draft β} (hd : d.Extends) (hf : ∀ a, (f a).Extends) :
    (d >>= f).Extends :=
  fun t n hn => hf (d t).value (d t).naming n (hd t n hn)

end Draft

end DataAccess.Code
