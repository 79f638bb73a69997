import DataAccess.Code.Closure
import DataAccess.Proofs.Code.Lines
import DataAccess.Proofs.Code.LocalNames

/-!
What an action writes, step by step: the lines that it adds, counted from a depth that it never
leaves upwards, and the depth at which it ends.
-/

set_option autoImplicit false

namespace DataAccess.Code.Emit

open ClassMembers (numbered)

variable {α β : Type} {object : String} {k l m : Nat}

/-- From `k` levels below any depth to `l` levels below it, the action adds lines there. The relation
holds between its result and the lines. -/
def Emits (object : String) (k l : Nat) (act : Emit α) (post : α → List Line → Prop) : Prop :=
  ∀ (s : Scope) (base : Nat), s.receiver = object → s.block.depth = base + k →
    ∃ lines, (act.run s).2.block = ⟨s.block.lines ++ sunken base lines, base + l⟩ ∧
      (act.run s).2.receiver = object ∧ post (act.run s).1 lines

theorem sunken_append (depth : Nat) (xs ys : List Line) :
    sunken depth (xs ++ ys) = sunken depth xs ++ sunken depth ys := List.map_append

section Emits

variable {act : Emit α} {f : α → Emit β} {mid post : α → List Line → Prop}

theorem Emits.bind {post : β → List Line → Prop} (hact : Emits object k l act mid)
    (hf : ∀ a xs, mid a xs → Emits object l m (f a) fun b ys => post b (xs ++ ys)) :
    Emits object k m (act >>= f) post := by
  intro s base hobject hdepth
  obtain ⟨xs, hblock, hreceiver, hxs⟩ := hact s base hobject hdepth
  have hdepth' : (act.run s).2.block.depth = base + l := by rw [hblock]
  obtain ⟨ys, hblock', hreceiver', hys⟩ := hf _ xs hxs (act.run s).2 base hreceiver hdepth'
  refine ⟨xs ++ ys, ?_, hreceiver', hys⟩
  rw [hblock] at hblock'
  rw [sunken_append, ← List.append_assoc]
  exact hblock'

theorem Emits.imp {post' : α → List Line → Prop} (h : Emits object k l act post)
    (himp : ∀ a xs, post a xs → post' a xs) : Emits object k l act post' := by
  intro s base hobject hdepth
  obtain ⟨lines, hblock, hreceiver, hpost⟩ := h s base hobject hdepth
  exact ⟨lines, hblock, hreceiver, himp _ _ hpost⟩

/-- An action that leaves the block as it is. -/
theorem emits_none (hblock : ∀ s, (act.run s).2.block = s.block)
    (hreceiver : ∀ s, (act.run s).2.receiver = s.receiver)
    (hpost : ∀ s : Scope, s.receiver = object → post (act.run s).1 []) :
    Emits object k k act post := by
  intro s base hobject hdepth
  refine ⟨[], ?_, (hreceiver s).trans hobject, hpost s hobject⟩
  rw [hblock, ← hdepth]
  simp [sunken]

theorem emits_pure (a : α) : Emits object k k (pure a) fun b xs => b = a ∧ xs = [] :=
  emits_none (fun _ => rfl) (fun _ => rfl) fun _ _ => ⟨rfl, rfl⟩

theorem emits_fresh (wish : String) :
    Emits object k k (fresh wish) fun x xs => (∃ n, x = numbered (localBase wish) n) ∧ xs = [] :=
  emits_none (fun s => by rw [fresh_run]) (fun s => by rw [fresh_run]) fun s _ => by
    rw [fresh_run]
    exact ⟨⟨_, rfl⟩, rfl⟩

theorem emits_receiver : Emits object k k receiver fun x xs => x = object ∧ xs = [] :=
  emits_none (fun _ => rfl) (fun _ => rfl) fun _ hobject => ⟨hobject, rfl⟩

theorem emits_db : Emits object k k db fun x xs => x = object ++ ".db" ∧ xs = [] :=
  emits_none (fun _ => rfl) (fun _ => rfl) fun _ hobject => ⟨by rw [← hobject]; rfl, rfl⟩

theorem emits_onMembers (act : StateM ClassMembers α) :
    Emits object k k (onMembers act) fun _ xs => xs = [] :=
  emits_none (fun _ => rfl) (fun _ => rfl) fun _ _ => rfl

/-- A change of the block that adds lines. -/
theorem emits_onBlock {f : Block → Block} {lines : List Line}
    (h : ∀ (b : Block) (base : Nat), b.depth = base + k →
      f b = ⟨b.lines ++ sunken base lines, base + l⟩) :
    Emits object k l (onBlock f) fun _ xs => xs = lines :=
  fun s base hobject hdepth => ⟨lines, h s.block base hdepth, hobject, rfl⟩

theorem emits_line (text : String) :
    Emits object k k (line text) fun _ xs => xs = [(k, text)] :=
  emits_onBlock fun b base hdepth => by simp [Block.line, hdepth, sunken]

theorem emits_statement (text : String) :
    Emits object k k (statement text) fun _ xs => xs = [(k, text ++ ";")] := emits_line _

theorem emits_enter (header : String) :
    Emits object k (k + 1) (enter header) fun _ xs => xs = [(k, header ++ " \x7b")] :=
  emits_onBlock fun b base hdepth => by
    simp [Block.enter, Block.deeper, Block.line, hdepth, sunken, Nat.add_assoc]

theorem emits_leaveWith (tail : String) :
    Emits object (k + 1) k (leaveWith tail) fun _ xs => xs = [(k, "\x7d" ++ tail)] :=
  emits_onBlock fun b base hdepth => by
    simp [Block.leaveWith, Block.shallower, Block.line, hdepth, sunken, ← Nat.add_assoc]

theorem emits_leave : Emits object (k + 1) k leave fun _ xs => xs = [(k, "\x7d")] :=
  emits_leaveWith ""

theorem emits_next (header : String) :
    Emits object (k + 1) (k + 1) (next header) fun _ xs =>
      xs = [(k, "\x7d " ++ header ++ " \x7b")] :=
  emits_onBlock fun b base hdepth => by
    simp [Block.next, Block.deeper, Block.shallower, Block.line, hdepth, sunken, ← Nat.add_assoc]

theorem emits_splice (code : Block) :
    Emits object k k (splice code) fun _ xs => xs = sunken k code.lines :=
  emits_onBlock fun b base hdepth => by
    rw [sunken_sunken, ← hdepth]
    rfl

/-- What a fork writes is its block; the lines are counted from there. -/
theorem Emits.forkAs {this : String} (h : Emits this 0 l act post) :
    Emits object k k (forkAs this act) fun p xs => xs = [] ∧ post p.1 p.2.lines := by
  intro s base hobject hdepth
  obtain ⟨lines, hblock, -, hpost⟩ := h { s with block := {}, receiver := this } 0 rfl rfl
  have hlines : ((act.run { s with block := {}, receiver := this }).2.block).lines = lines := by
    rw [hblock]
    simp [sunken_zero]
  refine ⟨[], ?_, hobject, rfl, ?_⟩
  · rw [← hdepth]
    simp [sunken, Emit.forkAs]
    rfl
  · exact hlines ▸ hpost

/-- Answers with the members of the class as the action finds them. -/
def noting (act : Emit Unit) : Emit ClassMembers := do
  let members := (← get).members
  act
  return members

end Emits

/-- An action of which every line is of the given kind. -/
def EmitsOnly (P : String → Prop) (object : String) (k l : Nat) (act : Emit α)
    (result : α → Prop) : Prop :=
  Emits object k l act fun a lines => result a ∧ ∀ x ∈ lines, P x.2

section EmitsOnly

variable {P : String → Prop} {act : Emit α} {f : α → Emit β} {result : α → Prop}

theorem EmitsOnly.bind {result' : β → Prop} (hact : EmitsOnly P object k l act result)
    (hf : ∀ a, result a → EmitsOnly P object l m (f a) result') :
    EmitsOnly P object k m (act >>= f) result' := by
  refine Emits.bind hact fun a xs ⟨ha, hxs⟩ => (hf a ha).imp fun b ys ⟨hb, hys⟩ => ⟨hb, ?_⟩
  intro x hx
  rcases List.mem_append.1 hx with hx | hx
  · exact hxs x hx
  · exact hys x hx

theorem EmitsOnly.imp {P' : String → Prop} {result' : α → Prop}
    (h : EmitsOnly P object k l act result) (hP : ∀ text, P text → P' text)
    (hresult : ∀ a, result a → result' a) : EmitsOnly P' object k l act result' :=
  Emits.imp h fun a _ ⟨ha, hlines⟩ => ⟨hresult a ha, fun x hx => hP _ (hlines x hx)⟩

/-- An action under a condition, before everything else. -/
theorem EmitsOnly.checked {c : Prop} [Decidable c] {act : Emit PUnit} {rest : PUnit → Emit β}
    {result' : β → Prop} (hact : EmitsOnly P object k k act fun _ => True)
    (hrest : EmitsOnly P object k m (rest ⟨⟩) result') :
    EmitsOnly P object k m (if c then act >>= rest else rest ⟨⟩) result' := by
  split
  · exact hact.bind fun _ _ => hrest
  · exact hrest

/-- An action that adds no line. -/
theorem Emits.quiet {result : α → Prop}
    (h : Emits object k k act fun a xs => result a ∧ xs = []) :
    EmitsOnly P object k k act result := by
  refine Emits.imp h fun a xs ⟨ha, hxs⟩ => ⟨ha, ?_⟩
  simp [hxs]

/-- An action that adds one line. -/
theorem Emits.single {act : Emit Unit} {depth : Nat} {text : String}
    (h : Emits object k l act fun _ xs => xs = [(depth, text)]) (htext : P text) :
    EmitsOnly P object k l act fun _ => True := by
  refine Emits.imp h fun a xs hxs => ⟨trivial, ?_⟩
  simpa [hxs] using htext

theorem only_pure {a : α} (ha : result a) : EmitsOnly P object k k (pure a) result :=
  (Emits.imp (emits_pure a) fun _ _ ⟨hb, hxs⟩ => ⟨hb ▸ ha, hxs⟩).quiet

theorem only_fresh (wish : String) :
    EmitsOnly P object k k (fresh wish) fun x => ∃ n, x = numbered (localBase wish) n :=
  (emits_fresh wish).quiet

theorem only_receiver : EmitsOnly P object k k receiver (· = object) := emits_receiver.quiet

theorem only_db : EmitsOnly P object k k db (· = object ++ ".db") := emits_db.quiet

theorem only_onMembers (act : StateM ClassMembers α) :
    EmitsOnly P object k k (onMembers act) fun _ => True :=
  ((emits_onMembers act).imp fun _ _ hxs => ⟨trivial, hxs⟩).quiet

theorem only_line {text : String} (h : P text) :
    EmitsOnly P object k k (line text) fun _ => True := (emits_line text).single h

theorem only_statement {text : String} (h : P (text ++ ";")) :
    EmitsOnly P object k k (statement text) fun _ => True := (emits_statement text).single h

theorem only_enter {header : String} (h : P (header ++ " \x7b")) :
    EmitsOnly P object k (k + 1) (enter header) fun _ => True := (emits_enter header).single h

theorem only_next {header : String} (h : P ("\x7d " ++ header ++ " \x7b")) :
    EmitsOnly P object (k + 1) (k + 1) (next header) fun _ => True := (emits_next header).single h

theorem only_leaveWith {tail : String} (h : P ("\x7d" ++ tail)) :
    EmitsOnly P object (k + 1) k (leaveWith tail) fun _ => True := (emits_leaveWith tail).single h

theorem only_leave (h : P "\x7d") : EmitsOnly P object (k + 1) k leave fun _ => True :=
  emits_leave.single h

theorem only_splice {code : Block} (h : ∀ x ∈ code.lines, P x.2) :
    EmitsOnly P object k k (splice code) fun _ => True := by
  refine Emits.imp (emits_splice code) fun _ xs hxs => ⟨trivial, fun x hx => ?_⟩
  obtain ⟨y, hy, rfl⟩ := List.mem_map.1 (hxs ▸ hx)
  exact h y hy

/-- The copy of the object for a closure. -/
theorem only_captureReceiver (h : ∀ n rest, P ("let " ++ (numbered "_this" n ++ rest))) :
    EmitsOnly P object k k captureReceiver fun this => ∃ n, this = numbered "_this" n := by
  refine (only_fresh "this").bind fun this ⟨n, hthis⟩ => only_receiver.bind fun _ _ => ?_
  subst hthis
  refine (only_statement ?_).bind fun _ _ => only_pure ⟨n, rfl⟩
  simp only [String.append_assoc]
  exact h n _

theorem EmitsOnly.forkAs {this : String} (h : EmitsOnly P this 0 l act result) :
    EmitsOnly P object k k (forkAs this act) fun p => result p.1 ∧ ∀ x ∈ p.2.lines, P x.2 :=
  Emits.quiet ((Emits.forkAs h).imp fun _ _ ⟨hxs, hp⟩ => ⟨hp, hxs⟩)

theorem EmitsOnly.fork {act : Emit Unit} {result : Unit → Prop}
    (h : EmitsOnly P object 0 l act result) :
    EmitsOnly P object k k (fork act) fun code => ∀ x ∈ code.lines, P x.2 :=
  only_receiver.bind fun this hthis => by
    subst hthis
    exact h.forkAs.bind fun _ hp => only_pure hp.2

theorem EmitsOnly.mapM (as : List α)
    (hf : ∀ a ∈ as, EmitsOnly P object k k (f a) fun _ => True) :
    EmitsOnly P object k k (as.mapM f) fun _ => True := by
  induction as with
  | nil => exact only_pure trivial
  | cons a as ih =>
    rw [List.mapM_cons]
    refine (hf a List.mem_cons_self).bind fun b _ => ?_
    exact (ih fun a ha => hf a (List.mem_cons_of_mem _ ha)).bind fun bs _ => only_pure trivial

theorem EmitsOnly.forM {f : α → Emit Unit} (as : List α)
    (hf : ∀ a ∈ as, EmitsOnly P object k k (f a) fun _ => True) :
    EmitsOnly P object k k (as.forM f) fun _ => True := by
  induction as with
  | nil => exact only_pure trivial
  | cons a as ih =>
    exact (hf a List.mem_cons_self).bind fun _ _ =>
      ih fun a ha => hf a (List.mem_cons_of_mem _ ha)

theorem EmitsOnly.filterMapM {g : α → Emit (Option β)} (as : List α)
    (hg : ∀ a ∈ as, EmitsOnly P object k k (g a) fun _ => True) :
    EmitsOnly P object k k (as.filterMapM g) fun _ => True := by
  have hloop : ∀ (as : List α) (acc : List β),
      (∀ a ∈ as, EmitsOnly P object k k (g a) fun _ => True) →
        EmitsOnly P object k k (List.filterMapM.loop g as acc) fun _ => True := by
    intro as
    induction as with
    | nil => exact fun acc _ => only_pure trivial
    | cons a as ih =>
      intro acc hg
      unfold List.filterMapM.loop
      refine (hg a List.mem_cons_self).bind fun b _ => ?_
      have hrest : ∀ a ∈ as, EmitsOnly P object k k (g a) fun _ => True :=
        fun a ha => hg a (List.mem_cons_of_mem _ ha)
      cases b with
      | none => exact ih acc hrest
      | some b => exact ih (b :: acc) hrest
  exact hloop as [] hg

end EmitsOnly

/-- At least `n` of the lines are of the given kind. -/
def AtLeast (n : Nat) (Q : String → Prop) (lines : List Line) : Prop :=
  ∃ found : List Line, found.Sublist lines ∧ found.length = n ∧ ∀ x ∈ found, Q x.2

section AtLeast

variable {n : Nat} {Q : String → Prop} {xs ys : List Line}

theorem atLeast_zero : AtLeast 0 Q xs := ⟨[], List.nil_sublist xs, rfl, List.forall_mem_nil _⟩

theorem AtLeast.mono (h : AtLeast n Q xs) (hsub : xs.Sublist ys) : AtLeast n Q ys := by
  obtain ⟨found, hfound, hlength, hkind⟩ := h
  exact ⟨found, hfound.trans hsub, hlength, hkind⟩

theorem AtLeast.append (hx : AtLeast m Q xs) (hy : AtLeast n Q ys) :
    AtLeast (m + n) Q (xs ++ ys) := by
  obtain ⟨found, hfound, rfl, hkind⟩ := hx
  obtain ⟨found', hfound', rfl, hkind'⟩ := hy
  refine ⟨found ++ found', hfound.append hfound', List.length_append, fun x hx => ?_⟩
  exact (List.mem_append.1 hx).elim (hkind x) (hkind' x)

end AtLeast

/-- An action of which every line is of one kind and at least `n` lines are of another one. -/
def EmitsRuns (P Q : String → Prop) (n : Nat) (object : String) (k l : Nat) (act : Emit α)
    (result : α → Prop) : Prop :=
  Emits object k l act fun a lines => (result a ∧ ∀ x ∈ lines, P x.2) ∧ AtLeast n Q lines

section EmitsRuns

variable {P Q : String → Prop} {n p : Nat} {act : Emit α} {f : α → Emit β} {result : α → Prop}

theorem EmitsOnly.runs (h : EmitsOnly P object k l act result) :
    EmitsRuns P Q 0 object k l act result := Emits.imp h fun _ _ hlines => ⟨hlines, atLeast_zero⟩

theorem EmitsRuns.bind {result' : β → Prop} (hact : EmitsRuns P Q n object k l act result)
    (hf : ∀ a, result a → EmitsRuns P Q p object l m (f a) result') :
    EmitsRuns P Q (n + p) object k m (act >>= f) result' := by
  refine Emits.bind hact fun a xs ⟨⟨ha, hxs⟩, hn⟩ => ?_
  refine (hf a ha).imp fun b ys ⟨⟨hb, hys⟩, hp⟩ => ⟨⟨hb, fun x hx => ?_⟩, hn.append hp⟩
  exact (List.mem_append.1 hx).elim (hxs x) (hys x)

/-- What comes before the lines that count. -/
theorem EmitsOnly.before {result' : β → Prop} (hact : EmitsOnly P object k l act result)
    (hf : ∀ a, result a → EmitsRuns P Q n object l m (f a) result') :
    EmitsRuns P Q n object k m (act >>= f) result' := by
  have h := EmitsRuns.bind hact.runs hf
  rwa [Nat.zero_add] at h

/-- What follows the lines that count. -/
theorem EmitsRuns.andThen {result' : β → Prop} (hact : EmitsRuns P Q n object k l act result)
    (hf : ∀ a, result a → EmitsOnly P object l m (f a) result') :
    EmitsRuns P Q n object k m (act >>= f) result' :=
  EmitsRuns.bind hact fun a ha => (hf a ha).runs

theorem EmitsRuns.forM {f : α → Emit Unit} (as : List α)
    (hf : ∀ a ∈ as, EmitsRuns P Q 1 object k k (f a) fun _ => True) :
    EmitsRuns P Q as.length object k k (as.forM f) fun _ => True := by
  induction as with
  | nil => exact (only_pure trivial).runs
  | cons a as ih =>
    rw [List.length_cons, Nat.add_comm]
    exact (hf a List.mem_cons_self).bind fun _ _ => ih fun a ha => hf a (List.mem_cons_of_mem _ ha)

end EmitsRuns

end DataAccess.Code.Emit
