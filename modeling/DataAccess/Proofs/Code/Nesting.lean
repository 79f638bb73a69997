import DataAccess.Proofs.Code.SharedMembers
import DataAccess.Proofs.Code.Splicing

/-!
Well-nested code. A line that ends with an opening brace opens a control flow, and the lines after it
are one deeper up to a line at its depth that starts with a closing brace. Emitters that close what
they open write such code, in whatever block they write.
-/

set_option autoImplicit false

namespace DataAccess.Code

/-- The line ends with an opening brace. -/
def OpensFlow (text : String) : Prop := text.toList.getLast? = some '\x7b'

/-- The line starts with a closing brace. -/
def ClosesFlow (text : String) : Prop := text.toList.head? = some '\x7d'

instance : DecidablePred OpensFlow := fun _ => inferInstanceAs (Decidable (_ = _))

instance : DecidablePred ClosesFlow := fun _ => inferInstanceAs (Decidable (_ = _))

theorem opensFlow_append (text : String) {tail : String} (h : OpensFlow tail) :
    OpensFlow (text ++ tail) := by
  rw [OpensFlow, String.toList_append, List.getLast?_append, h, Option.some_or]

/-- How a line ends is told by its last part. -/
theorem not_opensFlow_append (text : String) {tail : String}
    (h : tail.toList ≠ [] ∧ ¬OpensFlow tail) : ¬OpensFlow (text ++ tail) := by
  rw [OpensFlow, String.toList_append, List.getLast?_append_of_ne_nil _ h.1]
  exact h.2

theorem closesFlow_append (xs : String) : ClosesFlow ("\x7d" ++ xs) := by
  simp [ClosesFlow, String.toList_append]

/-- The control flows that are open behind the lines, of which `n` are open before them; none if a line
does not stand at the depth of these flows. A line one level up closes the innermost flow. -/
def flows : Nat → List Line → Option Nat
  | n, [] => some n
  | n, (depth, text) :: rest =>
    let opened := if OpensFlow text then 1 else 0
    if depth = n then flows (n + opened) rest
    else if depth + 1 = n ∧ ClosesFlow text then flows (depth + opened) rest
    else none

theorem flows_append (n : Nat) (xs ys : List Line) :
    flows n (xs ++ ys) = (flows n xs).bind fun m => flows m ys := by
  induction xs generalizing n with
  | nil => rfl
  | cons x xs ih =>
    simp only [List.cons_append, flows, ih]
    split
    · rfl
    · split <;> rfl

theorem flows_sunken (d n : Nat) (xs : List Line) :
    flows (d + n) (sunken d xs) = (flows n xs).map (d + ·) := by
  induction xs generalizing n with
  | nil => rfl
  | cons x xs ih =>
    have hsame : d + x.1 = d + n ↔ x.1 = n := by omega
    have hup : d + (x.1 + 1) = d + n ↔ x.1 + 1 = n := by omega
    have hcons : sunken d (x :: xs) = (d + x.1, x.2) :: sunken d xs := rfl
    simp only [hcons, flows, hsame, hup, Nat.add_assoc, ih]
    split
    · rfl
    · split <;> rfl

/-- Every control flow that the lines open is closed by them, and they close no other. -/
def WellNested (code : List Line) : Prop := flows 0 code = some 0

theorem WellNested.sunken {code : List Line} (h : WellNested code) (d : Nat) :
    flows d (sunken d code) = some d := by
  have hcode := flows_sunken d 0 code
  rwa [Nat.add_zero, h] at hcode

namespace Script

variable {α β : Type}

/-- Every fork on the way closes what it opens and nothing else, and so do the forks in it. -/
def Contained : {α : Type} → Script α → Scope → Prop
  | _, done _, _ => True
  | _, edit call rest, s => rest.Contained { s with block := call.edit s.block }
  | _, fresh wish rest, s =>
    let (name, s) := (Emit.fresh wish).run s
    (rest name).Contained s
  | _, receiver rest, s => (rest s.receiver).Contained s
  | _, members act rest, s =>
    let (answer, s) := (Emit.onMembers act).run s
    (rest answer).Contained s
  | _, forkAs object body rest, s =>
    let inside : Scope := { s with block := {}, receiver := object }
    let ((answer, code), s) := (Emit.forkAs object body.run).run s
    body.Balanced inside ∧ body.Contained inside ∧ (rest answer code).Contained s

/-- One script and then another one. -/
def bind : {α : Type} → Script α → (α → Script β) → Script β
  | _, done a, q => q a
  | _, edit call rest, q => edit call (rest.bind q)
  | _, fresh wish rest, q => fresh wish fun name => (rest name).bind q
  | _, receiver rest, q => receiver fun object => (rest object).bind q
  | _, members act rest, q => members act fun answer => (rest answer).bind q
  | _, forkAs object body rest, q => forkAs object body fun answer code => (rest answer code).bind q

variable (p : Script α) (q : α → Script β)

theorem run_bind : (p.bind q).run = p.run >>= fun a => (q a).run := by
  induction p with
  | done a => rfl
  | edit call rest ih => simp only [bind, run, ih, bind_assoc]
  | fresh wish rest ih | receiver rest ih | members act rest ih =>
    simp only [bind, run, ih, bind_assoc]
  | forkAs object body rest _ ih => simp only [bind, run, ih, bind_assoc]

theorem opened_bind (s : Scope) (n : Nat) :
    (p.bind q).opened s n =
      (p.opened s n).bind fun m => (q (p.run.run s).1).opened (p.run.run s).2 m := by
  induction p generalizing s n with
  | done a => rfl
  | edit call rest ih =>
    have hrest := funext (ih q { s with block := call.edit s.block })
    exact (congrArg (call.opened n).bind hrest).trans (Option.bind_assoc _ _ _).symm
  | fresh wish rest ih => exact ih _ q ((Emit.fresh wish).run s).2 n
  | receiver rest ih => exact ih _ q s n
  | members act rest ih => exact ih _ q ((Emit.onMembers act).run s).2 n
  | forkAs object body rest _ ih => exact ih _ _ q ((Emit.forkAs object body.run).run s).2 n

theorem contained_bind (s : Scope) :
    (p.bind q).Contained s ↔
      p.Contained s ∧ (q (p.run.run s).1).Contained (p.run.run s).2 := by
  induction p generalizing s with
  | done a => exact ⟨fun h => ⟨trivial, h⟩, And.right⟩
  | edit call rest ih => exact ih q { s with block := call.edit s.block }
  | fresh wish rest ih => exact ih _ q ((Emit.fresh wish).run s).2
  | receiver rest ih => exact ih _ q s
  | members act rest ih => exact ih _ q ((Emit.onMembers act).run s).2
  | forkAs object body rest _ ih =>
    let x := (Emit.forkAs object body.run).run s
    have hrest := ih x.1.1 x.1.2 q x.2
    refine ⟨fun ⟨hbalanced, hbody, h⟩ => ?_, fun ⟨⟨hbalanced, hbody, h⟩, hq⟩ => ?_⟩
    · exact ⟨⟨hbalanced, hbody, (hrest.1 h).1⟩, (hrest.1 h).2⟩
    · exact ⟨hbalanced, hbody, hrest.2 ⟨h, hq⟩⟩

end Script

/-- The methods of the first members stay, and every new one is well nested. -/
def Grown (c c' : ClassMembers) : Prop := ∀ m ∈ c'.methods, m ∈ c.methods ∨ WellNested m.body.lines

theorem Grown.refl (c : ClassMembers) : Grown c c := fun _ => .inl

theorem Grown.trans {c c' c'' : ClassMembers} (h : Grown c c') (h' : Grown c' c'') : Grown c c'' :=
  fun m hm => (h' m hm).elim (h m) .inr

theorem grown_of_methods {c c' : ClassMembers} (h : c'.methods = c.methods) : Grown c c' :=
  fun _ hm => .inl (h ▸ hm)

theorem methods_reserve (kind : MemberKind) (base key : String) (c : ClassMembers) :
    (c.reserve kind base key).methods = c.methods := by
  cases kind <;> rfl

/-- A shared field makes no method of its own. -/
theorem grown_field (spec : ClassMembers.FieldSpec)
    (h : ∀ c, Grown c (spec.prepare.run c).2) (c : ClassMembers) :
    Grown c ((ClassMembers.field spec).run c).2 := by
  rw [ClassMembers.run_field]
  cases c.fieldNames.lookup spec.key with
  | some name => exact .refl c
  | none => exact (grown_of_methods (methods_reserve _ _ _ c)).trans (h _)

theorem grown_method (spec : ClassMembers.MethodSpec)
    (h : ∀ name c, Grown c ((spec.prepare name).run c).2 ∧
      WellNested ((spec.prepare name).run c).1.body.lines) (c : ClassMembers) :
    Grown c ((ClassMembers.method spec).run c).2 := by
  rw [ClassMembers.run_method]
  cases c.methodNames.lookup spec.key with
  | some name => exact .refl c
  | none =>
    have hmade := h (c.freshName spec.base) (c.reserve .method spec.base spec.key)
    refine (grown_of_methods (methods_reserve _ _ _ c)).trans (hmade.1.trans fun m hm => ?_)
    rcases List.mem_append.1 hm with hm | hm
    · exact .inl hm
    · exact .inr (List.mem_singleton.1 hm ▸ hmade.2)

/-- A run of a script that starts with `k` open control flows and ends with `l`. -/
structure NestedRun {α : Type} (k l : Nat) (p : Script α) (post : α → Prop) (s : Scope) : Prop where
  opened : p.opened s k = some l
  contained : p.Contained s
  lines : s.block = ⟨[], k⟩ → flows k (p.run.run s).2.block.lines = some l
  grown : Grown s.members (p.run.run s).2.members
  result : post (p.run.run s).1

/-- The action is a script, and so it is at every depth; from every scope its run is nested. -/
def Nests {α : Type} (k l : Nat) (act : Emit α) (post : α → Prop) : Prop :=
  ∃ p : Script α, p.run = act ∧ ∀ s, NestedRun k l p post s

section Nests

variable {α β : Type} {k l m : Nat} {act : Emit α} {f : α → Emit β} {mid post : α → Prop}

theorem NestedRun.bind {post : β → Prop} {p : Script α} {q : α → Script β} {s : Scope}
    (hp : NestedRun k l p mid s)
    (hq : ∀ t, NestedRun l m (q (p.run.run s).1) post t) : NestedRun k m (p.bind q) post s := by
  let a := (p.run.run s).1
  let t := (p.run.run s).2
  have hrun : (p.bind q).run.run s = (q a).run.run t := by
    rw [Script.run_bind]
    rfl
  refine ⟨?_, ?_, fun hblock => ?_, ?_, ?_⟩
  · rw [Script.opened_bind, hp.opened]
    exact (hq t).opened
  · exact (Script.contained_bind p q s).2 ⟨hp.contained, (hq t).contained⟩
  · -- The second script runs behind the lines of the first one.
    let u : Scope := { t with block := ⟨[], l⟩ }
    have hdepth : t.block.depth = l := by
      refine (p.run_within {} s l ?_).2
      rw [hblock]
      exact hp.opened
    have ht : u.within ⟨t.block.lines, 0⟩ = t := by
      simp [u, Scope.within, Block.within, sunken, ← hdepth]
    obtain ⟨hwithin, -⟩ := (q a).run_within ⟨t.block.lines, 0⟩ u m (hq u).opened
    have hlines : ((p.bind q).run.run s).2.block.lines =
        t.block.lines ++ sunken 0 ((q a).run.run u).2.block.lines := by
      rw [ht] at hwithin
      rw [hrun, hwithin]
      rfl
    rw [hlines, flows_append, hp.lines hblock, sunken_zero]
    exact (hq u).lines rfl
  · rw [hrun]
    exact hp.grown.trans (hq t).grown
  · rw [hrun]
    exact (hq t).result

theorem Nests.bind {post : β → Prop} (hact : Nests k l act mid)
    (hf : ∀ a, mid a → Nests l m (f a) post) : Nests k m (act >>= f) post := by
  obtain ⟨p, rfl, hp⟩ := hact
  -- For a result that does not occur any script will do.
  have hscript : ∀ a, ∃ q : Script β, mid a → q.run = f a ∧ ∀ s, NestedRun l m q post s := by
    intro a
    by_cases ha : mid a
    · obtain ⟨q, hq⟩ := hf a ha
      exact ⟨q, fun _ => hq⟩
    · exact ⟨.done ((f a).run { members := { className := "" } }).1, fun h => absurd h ha⟩
  choose q hq using hscript
  refine ⟨p.bind q, ?_, fun s => (hp s).bind (hq _ (hp s).result).2⟩
  rw [Script.run_bind]
  funext s
  exact congrFun (hq _ (hp s).result).1 (p.run.run s).2

theorem Nests.imp {post' : α → Prop} (h : Nests k l act post) (himp : ∀ a, post a → post' a) :
    Nests k l act post' := by
  obtain ⟨p, hrun, hp⟩ := h
  exact ⟨p, hrun, fun s => { hp s with result := himp _ (hp s).result }⟩

theorem Nests.ite {p : Prop} [Decidable p] {x y : Emit α} (hx : Nests k l x post)
    (hy : Nests k l y post) : Nests k l (if p then x else y) post := by
  split
  · exact hx
  · exact hy

/-- A step that is taken only under a condition. -/
theorem Nests.when {p : Prop} [Decidable p] {act : Emit Unit} {rest : Unit → Emit α}
    (hact : Nests k k act fun _ => True) (hrest : ∀ u, Nests k l (rest u) post) :
    Nests k l (if p then act >>= rest else rest ()) post :=
  .ite (hact.bind fun u _ => hrest u) (hrest ())

/-- An action that asks for something and writes nothing. -/
theorem nests_ask (p : Script α) (hopened : ∀ s, p.opened s k = some k) (hcontained : ∀ s, p.Contained s)
    (hblock : ∀ s, (p.run.run s).2.block = s.block)
    (hgrown : ∀ s, Grown s.members (p.run.run s).2.members) (hresult : ∀ s, post (p.run.run s).1) :
    Nests k k p.run post := by
  refine ⟨p, rfl, fun s => ⟨hopened s, hcontained s, fun hs => ?_, hgrown s, hresult s⟩⟩
  rw [hblock, hs]
  rfl

theorem nests_pure {a : α} (ha : post a) : Nests k k (pure a) post :=
  nests_ask (.done a) (fun _ => rfl) (fun _ => trivial) (fun _ => rfl) (fun _ => .refl _) fun _ => ha

theorem nests_fresh (wish : String) : Nests k k (Emit.fresh wish) fun _ => True :=
  nests_ask (.fresh wish .done) (fun _ => rfl) (fun _ => trivial) (fun _ => rfl) (fun _ => .refl _)
    fun _ => trivial

theorem nests_receiver : Nests k k Emit.receiver fun _ => True :=
  nests_ask (.receiver .done) (fun _ => rfl) (fun _ => trivial) (fun _ => rfl) (fun _ => .refl _)
    fun _ => trivial

theorem nests_db : Nests k k Emit.db fun _ => True :=
  nests_receiver.bind fun _ _ => nests_pure trivial

theorem nests_onMembers {act : StateM ClassMembers α} (h : ∀ c, Grown c (act.run c).2) :
    Nests k k (Emit.onMembers act) fun _ => True :=
  nests_ask (.members act .done) (fun _ => rfl) (fun _ => trivial) (fun _ => rfl)
    (fun s => h s.members) fun _ => trivial

theorem nests_edit (call : BlockCall) (hopened : call.opened k = some l)
    (hflows : flows k (call.edit ⟨[], k⟩).lines = some l) :
    Nests k l (Emit.onBlock call.edit) fun _ => True := by
  refine ⟨.edit call (.done ()), rfl, fun s => ⟨?_, trivial, fun hs => ?_, .refl _, trivial⟩⟩
  · exact congrArg (Option.bind · _) hopened
  · rw [← hs] at hflows
    exact hflows

theorem nests_line {text : String} (h : ¬OpensFlow text) :
    Nests k k (Emit.line text) fun _ => True :=
  nests_edit (.line text) rfl (by simp [BlockCall.edit, Block.line, flows, h])

theorem nests_statement (text : String) : Nests k k (Emit.statement text) fun _ => True :=
  nests_line (not_opensFlow_append text (by decide))

theorem nests_enter (header : String) : Nests k (k + 1) (Emit.enter header) fun _ => True := by
  have hopens : OpensFlow (header ++ " \x7b") := opensFlow_append header (by decide)
  exact nests_edit (.enter header) rfl
    (by simp [BlockCall.edit, Block.enter, Block.line, Block.deeper, flows, hopens])

theorem nests_next (header : String) : Nests (k + 1) (k + 1) (Emit.next header) fun _ => True := by
  have hopens : OpensFlow ("\x7d " ++ header ++ " \x7b") := opensFlow_append _ (by decide)
  have hcloses : ClosesFlow ("\x7d " ++ header ++ " \x7b") := by
    simp [ClosesFlow, String.toList_append]
  exact nests_edit (.next header) rfl (by
    simp [BlockCall.edit, Block.next, Block.line, Block.deeper, Block.shallower, flows, hopens,
      hcloses])

theorem nests_leaveWith {tail : String} (h : ¬OpensFlow ("\x7d" ++ tail)) :
    Nests (k + 1) k (Emit.leaveWith tail) fun _ => True :=
  nests_edit (.leaveWith tail) rfl (by
    simp [BlockCall.edit, Block.leaveWith, Block.line, Block.shallower, flows, h, closesFlow_append])

theorem nests_leave : Nests (k + 1) k Emit.leave fun _ => True := nests_leaveWith (by decide)

theorem nests_splice {code : Block} (h : WellNested code.lines) :
    Nests k k (Emit.splice code) fun _ => True :=
  nests_edit (.splice code) rfl (h.sunken k)

theorem Nests.forkAs (h : Nests 0 0 act post) (object : String) :
    Nests k k (Emit.forkAs object act) fun r => post r.1 ∧ WellNested r.2.lines := by
  obtain ⟨p, rfl, hp⟩ := h
  refine nests_ask (.forkAs object p fun a code => .done (a, code)) (fun _ => rfl) (fun s => ?_)
    (fun _ => rfl) (fun s => ?_) fun s => ?_
  · exact ⟨(hp _).opened, (hp _).contained, trivial⟩
  · exact (hp { s with block := {}, receiver := object }).grown
  · have hrun := hp { s with block := {}, receiver := object }
    exact ⟨hrun.result, hrun.lines rfl⟩

theorem Nests.fork {act : Emit Unit} (h : Nests 0 0 act fun _ => True) :
    Nests k k (Emit.fork act) fun code => WellNested code.lines :=
  nests_receiver.bind fun object _ =>
    (h.forkAs object).bind fun _ hr => nests_pure hr.2

theorem Nests.mapM (as : List α) (hf : ∀ a, Nests k k (f a) fun _ => True) :
    Nests k k (as.mapM f) fun _ => True := by
  induction as with
  | nil => exact nests_pure trivial
  | cons a as ih =>
    rw [List.mapM_cons]
    exact (hf a).bind fun b _ => ih.bind fun bs _ => nests_pure trivial

theorem Nests.forM {f : α → Emit Unit} (as : List α) (hf : ∀ a ∈ as, Nests k k (f a) fun _ => True) :
    Nests k k (as.forM f) fun _ => True := by
  induction as with
  | nil => exact nests_pure trivial
  | cons a as ih =>
    exact (hf a List.mem_cons_self).bind fun _ _ => ih fun a ha => hf a (List.mem_cons_of_mem _ ha)

theorem Nests.filterMapM {f : α → Emit (Option β)} (as : List α)
    (hf : ∀ a, Nests k k (f a) fun _ => True) : Nests k k (as.filterMapM f) fun _ => True := by
  have hloop : ∀ (as : List α) (acc : List β),
      Nests k k (List.filterMapM.loop f as acc) fun _ => True := by
    intro as
    induction as with
    | nil => exact fun acc => nests_pure trivial
    | cons a as ih =>
      intro acc
      unfold List.filterMapM.loop
      refine (hf a).bind fun b _ => ?_
      cases b with
      | none => exact ih acc
      | some b => exact ih (b :: acc)
  exact hloop as []

/-- The body of another method of the class. -/
theorem Nests.methodBody (h : Nests 0 0 act post) (c : ClassMembers) :
    Grown c ((Emit.methodBody act).run c).2 ∧
      WellNested ((Emit.methodBody act).run c).1.2.lines := by
  obtain ⟨p, rfl, hp⟩ := h
  exact ⟨(hp { members := c }).grown, (hp { members := c }).lines rfl⟩

end Nests

end DataAccess.Code
