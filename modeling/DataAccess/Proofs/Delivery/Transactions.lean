import DataAccess.Delivery.Read
import DataAccess.Proofs.Delivery.LineKinds

/-!
Generated code runs its work in one transaction. The transaction begins before anything is run, it is
marked to be kept when nothing but the tail expression follows, and every cursor is released with its
scope.
-/

set_option autoImplicit false

namespace DataAccess.Delivery

open Code Emit Rows Statement
open ClassMembers (numbered)

/-- Inside a block the work, `n` runs of one kind or more, is done in a transaction: it begins once,
before anything is run; it is kept once, right before the tail expression; and every query is
guarded. -/
structure Transacted (object : String) (run : String → Prop) (n : Nat) (block : List Line) : Prop where
  runs : AtLeast n run block
  begins : ∃ before n after, block = before ++ (0, beginLine n object) :: after ∧
    (∀ l ∈ before, Idle l.2) ∧ ∀ l ∈ after, ¬Begins l.2
  succeeds : ∃ before value,
    block = before ++ [(0, successLine object), (0, "Ok(" ++ value ++ ")")] ∧
      (value = "()" ∨ IsOutcome value) ∧
      (∀ l ∈ before, ¬Succeeds l.2) ∧ ¬Succeeds ("Ok(" ++ value ++ ")")
  guarded : ∀ l ∈ block, Queries l.2 → QueriesGuarded l.2

/-- The code is the block, or holds it as the body of a control flow; the lines around it are idle. -/
inductive Holds (block : List Line) : List Line → Prop
  | whole : Holds block block
  | body {lead tail : List Line} {depth : Nat} {header rest : String}
    (hlead : ∀ l ∈ lead, Idle l.2) (hopen : Idle (header ++ " \x7b"))
    (hclose : Idle ("\x7d" ++ rest)) (htail : ∀ l ∈ tail, Idle l.2) :
    Holds block (lead ++ (depth, header ++ " \x7b") ::
      (sunken (depth + 1) block ++ (depth, "\x7d" ++ rest) :: tail))

section Blocks

variable {object : String} {run : String → Prop} {n : Nat}

/-- The line fits into a transaction that has begun and is not marked yet. -/
structure Inside (text : String) : Prop where
  not_begins : ¬Begins text
  not_succeeds : ¬Succeeds text
  guarded : Queries text → QueriesGuarded text

theorem Quiet.inside {text : String} (h : Quiet text) : Inside text :=
  ⟨h.not_begins, h.not_succeeds, fun hqueries => absurd hqueries h.not_queries⟩

theorem QueriesGuarded.inside {text : String} (h : QueriesGuarded text) : Inside text :=
  have hqueries : Queries text := .inr (.inr h)
  ⟨fun hbegins => (hbegins.opens.mono (List.subset_append_left _ _)).not_opens marks_apart.2
      hqueries.opens,
    fun hsucceeds => (hsucceeds.opens.mono (List.subset_append_right _ _)).not_opens marks_apart.2
      hqueries.opens, fun _ => h⟩

end Blocks

section Writes

variable {object : String} {k : Nat} (r : WriteResult)

theorem Executes.inside {text : String} (h : Executes text) : Inside text :=
  (quiet_of_opens h.opens (by decide +kernel)).inside

/-- A write as the compiler prepares it: the query of a method, or entities. -/
inductive Preparation where
  | query (bound : BoundQuery) (method : String)
  | entities (write : EntityWrite)

/-- The code that prepares the write. -/
def Preparation.code : Preparation → Emit StatementSource
  | query bound method => bound.prepareWrite method
  | entities write => write.prepare

/-- How many statements the write runs, one for each parameter that takes entities. -/
def Preparation.runs : Preparation → Nat
  | query _ _ => 1
  | entities write => write.params.length

end Writes

section Deliveries

/-- The code holds a block that does its work in a transaction. -/
def RunsWork (run : String → Prop) (n : Nat) (code : List Line) : Prop :=
  ∃ object block, IsObject object ∧ Transacted object run n block ∧ Holds block code

/-- How the lines around a block start. -/
def outerHeads : List String :=
  ["let _this", "let _cancellation_signal", "let _value", "_value", "daoc_runtime::",
    "self.db.invalidation_tracker()", "\x7d"]

theorem idle_of_outer {text : String} (h : Opens outerHeads text) : Idle text :=
  idle_of_opens h (by decide +kernel)

theorem idle_close (rest : String) : Idle ("\x7d" ++ rest) :=
  idle_of_outer (Opens.append (by decide) rest)

theorem emits_capture : Emits "self" 0 0 captureReceiver fun this xs =>
    IsObject this ∧ ∀ l ∈ xs, Idle l.2 := by
  have hdeclared : ∀ n rest, Idle ("let " ++ (numbered "_this" n ++ rest)) := fun n rest =>
    idle_of_outer ⟨"let _this", List.mem_cons_self,
      ((starts_numbered "_this" n).append rest).behind "let "⟩
  exact (only_captureReceiver hdeclared).imp (fun _ h => h) fun _ hthis => .inr hthis

/-- The code holds a block of some kind, which may depend on the object at hand. -/
def HoldsBlock (kind : String → List Line → Prop) (code : List Line) : Prop :=
  ∃ object block, IsObject object ∧ kind object block ∧ Holds block code

variable {before : List Line} {act : Emit Unit} {run : String → Prop} {n : Nat}
  {P : ClassMembers → String → List Line → Prop}

/-- What a closure writes is held by it. -/
theorem emits_closure (hbefore : ∀ l ∈ before, Idle l.2) {lead : String}
    (hlead : Opens outerHeads lead) (tail type : String)
    (hact : ∀ this, IsObject this → Emits this 0 0 (noting act) fun c xs => P c this xs) :
    Emits "self" 0 0 (noting (closure lead tail type act)) fun c xs =>
      HoldsBlock (P c) (before ++ xs) := by
  have hclosure : noting (closure lead tail type act) = (do
      let this ← captureReceiver
      let code ← forkAs this (noting act)
      enter (lead ++ "move || -> " ++ RuntimeNames.resultOf type)
      splice code.2
      leaveWith tail
      return code.1) := rfl
  rw [hclosure]
  refine emits_capture.bind fun this capture ⟨hthis, hcapture⟩ => ?_
  refine (Emits.forkAs (hact this hthis)).bind fun code _ ⟨hnone, hblock⟩ => ?_
  subst hnone
  refine (emits_enter _).bind fun _ opening hopening => (emits_splice _).bind fun _ body hbody => ?_
  refine (emits_leaveWith tail).bind fun _ closing hclosing => ?_
  refine (emits_pure code.1).imp fun _ _ ⟨hc, hnone⟩ => ?_
  subst hopening hbody hclosing hc hnone
  have hheader : Idle (lead ++ "move || -> " ++ RuntimeNames.resultOf type ++ " \x7b") :=
    idle_of_outer (((hlead.append _).append _).append _)
  have hfront : ∀ l ∈ before ++ capture, Idle l.2 := by
    intro l hl
    exact (List.mem_append.1 hl).elim (hbefore l) (hcapture l)
  refine ⟨this, code.2.lines, hthis, hblock, ?_⟩
  simpa using Holds.body hfront hheader (idle_close tail) (List.forall_mem_nil _)

theorem RunsWork.whole {object : String} {block : List Line} (hobject : IsObject object)
    (h : Transacted object run n block) : RunsWork run n block := ⟨object, block, hobject, h, .whole⟩

theorem opens_factory (rx : RxType) : Opens outerHeads rx.factory := by
  simp only [RxType.factory, RuntimeNames.library, String.append_assoc]
  exact Opens.append (by decide) _

theorem opens_coroutines : Opens outerHeads RuntimeNames.coroutines := by decide

theorem opens_guava : Opens outerHeads RuntimeNames.guava := by decide

section WriteBinder

variable {result : WriteResult} {prepare : Emit StatementSource}
  (hrun : ∀ object, IsObject object → Emits object 0 0 (noting (WriteBinder.writeRun result prepare))
    fun c xs => P c object xs)
include hrun

/-- What a write of a type that may complete empty runs stands in a block inside a closure. -/
theorem emits_writeMaybe (rx : RxType) :
    Emits "self" 0 0 (noting (WriteBinder.writeMaybe rx.factory result prepare)) fun c xs =>
      HoldsBlock (P c) xs := by
  have hmaybe : noting (WriteBinder.writeMaybe rx.factory result prepare) = (do
      let this ← captureReceiver
      let value ← fresh "value"
      let code ← forkAs this (noting (WriteBinder.writeRun result prepare))
      enter (rx.factory ++ "(move || -> " ++
        RuntimeNames.resultOf ("Option<" ++ result.returns.display ++ ">"))
      enter ("let " ++ value ++ " =")
      splice code.2
      leaveWith ";"
      line (value ++ ".map(Some)")
      leaveWith ")"
      return code.1) := rfl
  rw [hmaybe]
  refine emits_capture.bind fun this capture ⟨hthis, hcapture⟩ => ?_
  refine (emits_fresh "value").bind fun value _ ⟨⟨n, hvalue⟩, hnone⟩ => ?_
  subst hnone
  refine (Emits.forkAs (hrun this hthis)).bind fun code _ ⟨hnone, hblock⟩ => ?_
  subst hnone
  refine (emits_enter _).bind fun _ outer houter => (emits_enter _).bind fun _ inner hinner => ?_
  refine (emits_splice _).bind fun _ body hbody => (emits_leaveWith ";").bind fun _ close hclose => ?_
  refine (emits_line _).bind fun _ mapped hmapped => (emits_leaveWith ")").bind fun _ last hlast => ?_
  refine (emits_pure code.1).imp fun _ _ ⟨hc, hnone⟩ => ?_
  subst houter hinner hbody hclose hmapped hlast hc hnone
  have hname : Opens ["_value"] value := ⟨_, List.mem_cons_self, hvalue ▸ starts_numbered _ n⟩
  have houter : ∀ l ∈ capture ++ [(0, rx.factory ++ "(move || -> " ++ RuntimeNames.resultOf
      ("Option<" ++ result.returns.display ++ ">") ++ " \x7b")], Idle l.2 := by
    intro l hl
    rcases List.mem_append.1 hl with hl | hl
    · exact hcapture l hl
    · obtain rfl := List.mem_singleton.1 hl
      exact idle_of_outer ((((opens_factory rx).append _).append _).append _)
  have hinner : Idle ("let " ++ value ++ " =" ++ " \x7b") := by
    simp only [String.append_assoc]
    exact idle_of_outer (((hname.append _).behind "let ").mono (by decide))
  have hlast : ∀ l ∈ [(1, value ++ ".map(Some)"), (0, "\x7d" ++ ")")], Idle l.2 := by
    simp only [List.mem_cons, List.not_mem_nil, or_false, forall_eq_or_imp, forall_eq]
    exact ⟨idle_of_outer ((hname.append _).mono (by decide)), idle_close ")"⟩
  refine ⟨this, code.2.lines, hthis, hblock, ?_⟩
  simpa using Holds.body houter hinner (idle_close ";") hlast

/-- Whatever its delivery, a write holds the block that runs it. -/
theorem emits_writeBinder (delivery : WriteDelivery) :
    Emits "self" 0 0 (noting (WriteBinder.write ⟨delivery, some result⟩ prepare)) fun c xs =>
      HoldsBlock (P c) xs := by
  have hclosure : ∀ {lead : String}, Opens outerHeads lead → ∀ tail,
      Emits "self" 0 0 (noting (WriteBinder.writeDeferred lead tail result prepare)) fun c xs =>
        HoldsBlock (P c) xs :=
    fun hlead tail => emits_closure (List.forall_mem_nil _) hlead tail _ hrun
  cases delivery with
  | instant =>
    have hself : IsObject "self" := .inl rfl
    exact (hrun "self" hself).imp fun _ xs hblock => ⟨"self", xs, hself, hblock, .whole⟩
  | rx type =>
    unfold WriteBinder.write
    dsimp only
    split
    · exact emits_writeMaybe hrun type
    · exact hclosure ((opens_factory type).append _) ")"
  | listenableFuture =>
    have hwrite : noting (WriteBinder.write ⟨.listenableFuture, some result⟩ prepare) = (do
        let db ← Emit.db
        noting (WriteBinder.writeDeferred (RuntimeNames.guava ++
          "::create_listenable_future_callable(" ++ db ++ ".clone(), ") ")" result prepare)) := rfl
    rw [hwrite]
    refine emits_db.bind fun db _ ⟨_, hnone⟩ => ?_
    subst hnone
    exact hclosure (((opens_guava.append _).append _).append _) ")"
  | suspending =>
    have hwrite : noting (WriteBinder.write ⟨.suspending, some result⟩ prepare) = (do
        let db ← Emit.db
        noting (WriteBinder.writeDeferred (RuntimeNames.coroutines ++ "::execute_callable(" ++ db ++
          ".clone(), true, ") ").await" result prepare)) := rfl
    rw [hwrite]
    refine emits_db.bind fun db _ ⟨_, hnone⟩ => ?_
    subst hnone
    exact hclosure (((opens_coroutines.append _).append _).append _) ").await"

end WriteBinder

/-- The statement of a read: a variable that is there, or what the compiler prepares for a query. -/
inductive ReadSource where
  | named (name : String)
  | query (bound : BoundQuery)

/-- The code that prepares the statement. -/
def ReadSource.code : ReadSource → Emit String
  | named name => pure name
  | query bound => bound.prepareRead

/-- What the body of a method does with the database. -/
inductive Work where
  | read (binder : ReadBinder) (source : ReadSource)
  | write (binder : WriteBinder) (preparation : Preparation)

namespace Work

/-- The code that does the work; a query runs in a transaction here. -/
def code : Work → Emit Unit
  | read binder source => do binder.write (← source.code) true
  | write binder preparation => binder.write preparation.code

/-- What a line does that runs the work: it queries the database or executes a statement. -/
def Run : Work → String → Prop
  | read _ _ => QueriesGuarded
  | write _ _ => Executes

/-- How often the work is run. -/
def runs : Work → Nat
  | read _ _ => 1
  | write _ preparation => preparation.runs

end Work

end Deliveries

end DataAccess.Delivery
