import DataAccess.Diagnostics.Attempt
import DataAccess.Proofs.Diagnostics.Findings
import Mathlib.Tactic.Choose

/-!
What reporting code yields and how many errors it reports. Neither depends on what was reported
before, so that code can be followed one action after the other. Code that sets no anchor and
suppresses nothing of its own reports the same problems in every run.
-/

set_option autoImplicit false

namespace DataAccess

theorem Logger.errorCount_replay (l : Logger) (log : Log) :
    (l.replay log).errorCount = l.errorCount + log.errorCount := by
  simp [Logger.replay, Logger.errorCount, Log.errorCount, Log.errors]

theorem Logger.errorCount_error (l : Logger) (p : Problem) :
    (l.error p).errorCount = l.errorCount + 1 := by
  rw [Logger.error, Logger.record, Logger.errorCount_replay]
  rfl

theorem Logger.errorCount_warn (l : Logger) (kind : Warning) (p : Problem) :
    (l.warn kind p).errorCount = l.errorCount := by
  unfold Logger.warn
  split
  · rfl
  · rw [Logger.record, Logger.errorCount_replay]
    rfl

@[simp] theorem Logger.errorCount_fork (l : Logger) : l.fork.errorCount = 0 := rfl

/-- The action yields `a` and reports `n` errors, whatever was reported before. -/
structure Yields {α : Type} (act : Report α) (a : α) (n : Nat) : Prop where
  value : ∀ l, (act.run l).1 = a
  errors : ∀ l, (act.run l).2.errorCount = l.errorCount + n

/-- What the action does is independent of what was reported before, and all that it finds belongs to
the declaration being processed. -/
def Steady {α : Type} (act : Report α) : Prop := ∃ a log, Finds act a (Log.under · log)

/-- The action is steady, and all that it finds are problems of some kind. -/
def FindsOnly {α : Type} (P : Problem → Prop) (act : Report α) : Prop :=
  ∃ a log, Finds act a (Log.under · log) ∧ ∀ d ∈ log, P d.problem

/-- What the action does is independent of what was reported before; what it finds may have an anchor
of its own. -/
def Determined {α : Type} (act : Report α) : Prop := ∃ a found, Finds act a found

section FindsOnly

variable {α β : Type} {P Q : Problem → Prop} {act : Report α} {f : α → Report β}

theorem FindsOnly.steady (h : FindsOnly P act) : Steady act := by
  obtain ⟨a, log, ha, -⟩ := h
  exact ⟨a, log, ha⟩

theorem steady_iff_findsOnly : Steady act ↔ FindsOnly (fun _ => True) act := by
  refine ⟨?_, FindsOnly.steady⟩
  rintro ⟨a, log, ha⟩
  exact ⟨a, log, ha, fun _ _ => trivial⟩

theorem FindsOnly.imp (h : FindsOnly P act) (hPQ : ∀ p, P p → Q p) : FindsOnly Q act := by
  obtain ⟨a, log, ha, hlog⟩ := h
  exact ⟨a, log, ha, fun d hd => hPQ _ (hlog d hd)⟩

/-- What such an action finds under any anchor. -/
theorem FindsOnly.finds (h : FindsOnly P act) :
    ∃ log, Finds act act.answer (Log.under · log) ∧ ∀ d ∈ log, P d.problem := by
  obtain ⟨a, log, ha, hlog⟩ := h
  exact ⟨log, ha.answer_eq.symm ▸ ha, hlog⟩

theorem FindsOnly.bind (h : FindsOnly P act) (h' : ∀ a, FindsOnly P (f a)) :
    FindsOnly P (act >>= f) := by
  obtain ⟨a, log, ha, hlog⟩ := h
  obtain ⟨b, log', hb, hlog'⟩ := h' a
  refine ⟨b, log ++ log', ?_, List.forall_mem_append.2 ⟨hlog, hlog'⟩⟩
  simp only [Log.under_append]
  exact ha.bind hb

theorem findsOnly_pure (a : α) : FindsOnly P (pure a) := ⟨a, [], finds_pure a, List.forall_mem_nil _⟩

theorem FindsOnly.map (g : α → β) (h : FindsOnly P act) : FindsOnly P (g <$> act) :=
  h.bind (f := fun a => pure (g a)) fun _ => findsOnly_pure _

theorem findsOnly_error {p : Problem} (h : P p) : FindsOnly P (Report.error p) :=
  ⟨(), [⟨.error, p, none⟩], finds_error p, by simpa using h⟩

theorem findsOnly_warn {kind : Warning} {p : Problem} (h : P p) :
    FindsOnly P (Report.warn kind p) :=
  ⟨(), [⟨.warning kind, p, none⟩], finds_warn kind p, by simpa using h⟩

theorem FindsOnly.ite {p : Prop} [Decidable p] {x y : Report α} (hx : FindsOnly P x)
    (hy : FindsOnly P y) : FindsOnly P (if p then x else y) := by
  split
  · exact hx
  · exact hy

/-- A report under a condition, before everything else. -/
theorem FindsOnly.checked {p : Prop} [Decidable p] {check : Report PUnit} {rest : PUnit → Report α}
    (hcheck : FindsOnly P check) (hrest : FindsOnly P (rest ⟨⟩)) :
    FindsOnly P (if p then check >>= rest else rest ⟨⟩) :=
  FindsOnly.ite (hcheck.bind fun _ => hrest) hrest

theorem FindsOnly.mapM {g : α → Report β} (hg : ∀ a, FindsOnly P (g a)) (xs : List α) :
    FindsOnly P (xs.mapM g) := by
  induction xs with
  | nil => exact findsOnly_pure []
  | cons x xs ih =>
    rw [List.mapM_cons]
    exact (hg x).bind fun b => ih.bind fun bs => findsOnly_pure (b :: bs)

end FindsOnly

section Yields

variable {α β : Type} {act : Report α} {f : α → Report β} {a a' : α} {b : β} {m n : Nat}

theorem Yields.unique (h : Yields act a m) (h' : Yields act a' n) : a = a' ∧ m = n := by
  have hv := (h.value {}).symm.trans (h'.value {})
  have he := (h.errors {}).symm.trans (h'.errors {})
  exact ⟨hv, by omega⟩

theorem yields_pure (a : α) : Yields (pure a : Report α) a 0 := ⟨fun _ => rfl, fun _ => rfl⟩

theorem yields_error (p : Problem) : Yields (Report.error p) () 1 :=
  ⟨fun _ => rfl, fun l => l.errorCount_error p⟩

theorem yields_warn (kind : Warning) (p : Problem) : Yields (Report.warn kind p) () 0 :=
  ⟨fun _ => rfl, fun l => l.errorCount_warn kind p⟩

theorem Yields.bind (h : Yields act a m) (h' : Yields (f a) b n) :
    Yields (act >>= f) b (m + n) := by
  have hrun : ∀ l, (act >>= f).run l = (f a).run (act.run l).2 := by
    intro l
    rw [← h.value l]
    rfl
  constructor
  · intro l
    rw [hrun, h'.value]
  · intro l
    rw [hrun, h'.errors, h.errors, Nat.add_assoc]

/-- An action without errors leaves the errors to what follows. -/
theorem Yields.andThen (h : Yields act a 0) (h' : Yields (f a) b n) : Yields (act >>= f) b n := by
  have hboth := h.bind h'
  rwa [Nat.zero_add] at hboth

theorem Yields.map (g : α → β) (h : Yields act a n) : Yields (g <$> act) (g a) n :=
  h.bind (f := fun a => pure (g a)) (yields_pure (g a))

/-- What is found counts as an error wherever it is recorded. -/
theorem Finds.yields {log : Log} (h : Finds act a (Log.under · log)) :
    Yields act a log.errorCount := by
  constructor
  · intro l
    rw [h.run]
  · intro l
    rw [h.run, Logger.errorCount_replay, Log.errorCount, Log.errors_without, Log.errors_under]
    exact congrArg (l.errorCount + ·) (List.length_map _)

theorem Steady.yields (h : Steady act) : ∃ a n, Yields act a n := by
  obtain ⟨a, log, ha⟩ := h
  exact ⟨a, _, ha.yields⟩

theorem Steady.bind (h : Steady act) (h' : ∀ a, Steady (f a)) : Steady (act >>= f) :=
  ((steady_iff_findsOnly.1 h).bind fun a => steady_iff_findsOnly.1 (h' a)).steady

theorem steady_pure (a : α) : Steady (pure a : Report α) := steady_iff_findsOnly.2 (findsOnly_pure a)

theorem Steady.map (g : α → β) (h : Steady act) : Steady (g <$> act) :=
  ((steady_iff_findsOnly.1 h).map g).steady

theorem steady_error (p : Problem) : Steady (Report.error p) :=
  steady_iff_findsOnly.2 (findsOnly_error trivial)

theorem steady_warn (kind : Warning) (p : Problem) : Steady (Report.warn kind p) :=
  steady_iff_findsOnly.2 (findsOnly_warn trivial)

/-- An action without errors consists of actions without errors. -/
theorem Yields.of_bind (hact : Steady act) (hf : ∀ a, Steady (f a)) (h : Yields (act >>= f) b 0) :
    ∃ a, Yields act a 0 ∧ Yields (f a) b 0 := by
  obtain ⟨a, m, ha⟩ := hact.yields
  obtain ⟨b', n, hb⟩ := (hf a).yields
  obtain ⟨rfl, hsum⟩ := (ha.bind hb).unique h
  obtain ⟨rfl, rfl⟩ : m = 0 ∧ n = 0 := by omega
  exact ⟨a, ha, hb⟩

theorem Steady.ite {p : Prop} [Decidable p] {x y : Report α} (hx : Steady x) (hy : Steady y) :
    Steady (if p then x else y) :=
  (FindsOnly.ite (steady_iff_findsOnly.1 hx) (steady_iff_findsOnly.1 hy)).steady

/-- A report under a condition, before everything else. -/
theorem Steady.checked {p : Prop} [Decidable p] {check : Report PUnit} {rest : PUnit → Report α}
    (hcheck : Steady check) (hrest : Steady (rest ⟨⟩)) :
    Steady (if p then check >>= rest else rest ⟨⟩) :=
  Steady.ite (hcheck.bind fun _ => hrest) hrest

theorem Steady.mapM {g : α → Report β} (hg : ∀ a, Steady (g a)) (xs : List α) :
    Steady (xs.mapM g) :=
  (FindsOnly.mapM (fun a => steady_iff_findsOnly.1 (hg a)) xs).steady

theorem Steady.filterMapM {g : α → Report (Option β)} (hg : ∀ a, Steady (g a)) (xs : List α) :
    Steady (xs.filterMapM g) := by
  choose value log hlog using hg
  refine ⟨xs.filterMap value, xs.flatMap log, ?_⟩
  simp only [Log.under, List.map_flatMap]
  exact Finds.filterMapM hlog xs

theorem Steady.forM {g : α → Report PUnit} (hg : ∀ a, Steady (g a)) (xs : List α) :
    Steady (xs.forM g) := by
  induction xs with
  | nil => exact steady_pure PUnit.unit
  | cons x xs ih => exact (hg x).bind fun _ => ih

/-! What a loop without errors does. -/

theorem Yields.of_mapM {g : α → Report β} (hg : ∀ a, Steady (g a)) {xs : List α} {bs : List β}
    (h : Yields (xs.mapM g) bs 0) : List.Forall₂ (fun x b => Yields (g x) b 0) xs bs := by
  induction xs generalizing bs with
  | nil =>
    rw [List.mapM_nil] at h
    obtain ⟨rfl, -⟩ := h.unique (yields_pure _)
    exact .nil
  | cons x xs ih =>
    rw [List.mapM_cons] at h
    obtain ⟨b, hb, h⟩ := h.of_bind (hg x) fun b => (Steady.mapM hg xs).bind fun _ => steady_pure _
    obtain ⟨rest, hrest, h⟩ := h.of_bind (Steady.mapM hg xs) fun _ => steady_pure _
    obtain ⟨rfl, -⟩ := h.unique (yields_pure _)
    exact .cons hb (ih hrest)

theorem Yields.of_forM {g : α → Report PUnit} (hg : ∀ a, Steady (g a)) {xs : List α}
    (h : Yields (xs.forM g) PUnit.unit 0) : ∀ x ∈ xs, Yields (g x) PUnit.unit 0 := by
  induction xs with
  | nil => exact List.forall_mem_nil _
  | cons x xs ih =>
    obtain ⟨⟨⟩, hx, h⟩ := h.of_bind (hg x) fun _ => Steady.forM hg xs
    exact List.forall_mem_cons.2 ⟨hx, ih h⟩

theorem Yields.of_filterMapM {g : α → Report (Option β)} (hg : ∀ a, Steady (g a)) {xs : List α}
    {bs : List β} (h : Yields (xs.filterMapM g) bs 0) :
    ∃ value : α → Option β, bs = xs.filterMap value ∧ ∀ x ∈ xs, Yields (g x) (value x) 0 := by
  choose value log hlog using hg
  have hfound : Finds (xs.filterMapM g) (xs.filterMap value) (Log.under · (xs.flatMap log)) := by
    simp only [Log.under, List.map_flatMap]
    exact Finds.filterMapM hlog xs
  obtain ⟨rfl, herrors⟩ := h.unique hfound.yields
  refine ⟨value, rfl, fun x hx => ?_⟩
  have hnone : (log x).errors = [] := by
    have hall : Log.errors (xs.flatMap log) = [] := List.length_eq_zero_iff.1 herrors.symm
    rw [Log.errors_flatMap, List.flatMap_eq_nil_iff] at hall
    exact hall x hx
  have hyields := (hlog x).yields
  rwa [Log.errorCount, hnone] at hyields

/-- Whatever the action answers without errors has the property, if something is known. -/
structure Assures (known : Prop) (act : Report α) (P : α → Prop) : Prop where
  steady : Steady act
  holds : known → ∀ a, Yields act a 0 → P a

section Assures

variable {known : Prop} {P : α → Prop} {Q : β → Prop}

theorem assures_pure (h : known → P a) : Assures known (pure a) P :=
  ⟨steady_pure a, fun hknown _ hb => ((yields_pure a).unique hb).1 ▸ h hknown⟩

theorem Assures.bind (hact : Steady act) (hf : ∀ a, Assures (known ∧ Yields act a 0) (f a) Q) :
    Assures known (act >>= f) Q := by
  refine ⟨hact.bind fun a => (hf a).steady, fun hknown b hb => ?_⟩
  obtain ⟨a, ha, hb⟩ := hb.of_bind hact fun a => (hf a).steady
  exact (hf a).holds ⟨hknown, ha⟩ b hb

theorem Assures.ite {p : Prop} [Decidable p] {x y : Report α} (hx : p → Assures known x P)
    (hy : ¬p → Assures known y P) : Assures known (if p then x else y) P := by
  split
  · exact hx ‹_›
  · exact hy ‹_›

/-- Nothing is answered without errors behind an error. -/
theorem assures_error {f : Unit → Report β} (p : Problem) (hf : ∀ u, Steady (f u)) :
    Assures known (Report.error p >>= f) Q :=
  .bind (steady_error p) fun u => ⟨hf u, fun h => nomatch (h.2.unique (yields_error p)).2⟩

end Assures

theorem Steady.determined (h : Steady act) : Determined act := by
  obtain ⟨a, log, ha⟩ := h
  exact ⟨a, _, ha⟩

theorem Determined.bind (h : Determined act) (h' : ∀ a, Determined (f a)) :
    Determined (act >>= f) := by
  obtain ⟨a, found, ha⟩ := h
  obtain ⟨b, found', hb⟩ := h' a
  exact ⟨b, _, ha.bind hb⟩

theorem Determined.anchored (anchor : Option String) (h : Determined act) :
    Determined (Report.anchored anchor act) := by
  obtain ⟨a, found, ha⟩ := h
  exact ⟨a, _, ha.anchored anchor⟩

theorem Determined.ite {p : Prop} [Decidable p] {x y : Report α} (hx : Determined x)
    (hy : Determined y) : Determined (if p then x else y) := by
  split
  · exact hx
  · exact hy

/-- Every run gives the same answer. -/
theorem Determined.run_fst (h : Determined act) (l : Logger) : (act.run l).1 = act.answer := by
  obtain ⟨a, found, ha⟩ := h
  rw [ha.run, ha.answer_eq]

/-- What follows is done with that answer. -/
theorem Determined.bind_eq (h : Determined act) (f : α → Report β) :
    act >>= f = act >>= fun _ => f act.answer := by
  funext l
  have hrun : ∀ g : α → Report β, (act >>= g) l = g (act.run l).1 (act.run l).2 := fun _ => rfl
  rw [hrun, hrun, h.run_fst]

theorem Determined.answer_bind (h : Determined act) (h' : Determined (f act.answer)) :
    (act >>= f).answer = (f act.answer).answer := by
  rw [h.bind_eq]
  exact h'.run_fst _

/-- What such an action does is told by its answer and its findings. -/
theorem Determined.finds (h : Determined act) :
    Finds act act.answer fun anchor => (Report.anchored anchor act).findings := by
  obtain ⟨a, found, ha⟩ := h
  exact ha.told

end Yields

/-! Code that may give up. -/

section Attempt

variable {α β : Type} {x : Attempt α} {f : α → Attempt β} {a : α} {b : β} {n : Nat}

theorem run_attempt_bind (x : Attempt α) (f : α → Attempt β) :
    (x >>= f).run = x.run >>= fun
      | some a => (f a).run
      | none => pure none := by
  rfl

section FindsOnly

variable {P : Problem → Prop}

theorem findsOnly_attempt_bind (hx : FindsOnly P x.run) (hf : ∀ a, FindsOnly P (f a).run) :
    FindsOnly P (x >>= f).run := by
  rw [run_attempt_bind]
  refine hx.bind fun a => ?_
  cases a with
  | none => exact findsOnly_pure none
  | some a => exact hf a

theorem findsOnly_attempt_pure (a : α) : FindsOnly P (pure a : Attempt α).run :=
  findsOnly_pure (some a)

theorem findsOnly_attempt_failure : FindsOnly P (failure : Attempt α).run := findsOnly_pure none

theorem findsOnly_attempt_lift {act : Report α} (h : FindsOnly P act) :
    FindsOnly P (liftM act : Attempt α).run := h.map some

theorem findsOnly_reject {p : Problem} (h : P p) : FindsOnly P (Attempt.reject p : Attempt α).run :=
  findsOnly_attempt_bind (findsOnly_attempt_lift (findsOnly_error h)) fun _ =>
    findsOnly_attempt_failure

theorem findsOnly_ofOption (v : Option α) : FindsOnly P (Attempt.ofOption v).run := findsOnly_pure v

theorem findsOnly_ofExcept {v : Except Problem α} (h : ∀ p, v = .error p → P p) :
    FindsOnly P (Attempt.ofExcept v).run := by
  cases v with
  | ok a => exact findsOnly_attempt_pure a
  | error p => exact findsOnly_reject (h p rfl)

theorem findsOnly_attempt_mapM (hf : ∀ a, FindsOnly P (f a).run) (xs : List α) :
    FindsOnly P (xs.mapM f).run := by
  induction xs with
  | nil => exact findsOnly_attempt_pure []
  | cons x xs ih =>
    rw [List.mapM_cons]
    exact findsOnly_attempt_bind (hf x) fun b => findsOnly_attempt_bind ih fun bs =>
      findsOnly_attempt_pure (b :: bs)

/-- A check before everything else. -/
theorem findsOnly_attempt_unless {c : Prop} [Decidable c] {p : Problem} (hp : P p)
    (hx : FindsOnly P x.run) :
    FindsOnly P (if c then do Attempt.reject (α := Unit) p; x else x).run := by
  split
  · exact findsOnly_attempt_bind (findsOnly_reject hp) fun _ => hx
  · exact hx

end FindsOnly

theorem steady_attempt_bind (hx : Steady x.run) (hf : ∀ a, Steady (f a).run) :
    Steady (x >>= f).run :=
  (findsOnly_attempt_bind (steady_iff_findsOnly.1 hx) fun a => steady_iff_findsOnly.1 (hf a)).steady

theorem steady_attempt_pure (a : α) : Steady (pure a : Attempt α).run := steady_pure (some a)

theorem steady_attempt_failure : Steady (failure : Attempt α).run := steady_pure none

theorem steady_attempt_lift {act : Report α} (h : Steady act) :
    Steady (liftM act : Attempt α).run := h.map some

theorem steady_reject (p : Problem) : Steady (Attempt.reject p : Attempt α).run :=
  steady_iff_findsOnly.2 (findsOnly_reject trivial)

theorem steady_ofOption (v : Option α) : Steady (Attempt.ofOption v).run := steady_pure v

theorem steady_ofExcept (v : Except Problem α) : Steady (Attempt.ofExcept v).run :=
  steady_iff_findsOnly.2 (findsOnly_ofExcept fun _ _ => trivial)

/-- An attempt that succeeds without errors consists of such attempts. -/
theorem yields_of_attempt_bind (hx : Steady x.run) (hf : ∀ a, Steady (f a).run)
    (h : Yields (x >>= f).run (some b) 0) :
    ∃ a, Yields x.run (some a) 0 ∧ Yields (f a).run (some b) 0 := by
  rw [run_attempt_bind] at h
  obtain ⟨o, ho, hb⟩ := h.of_bind hx fun o => by
    cases o with
    | none => exact steady_pure none
    | some a => exact hf a
  cases o with
  | none => exact absurd ((yields_pure none).unique hb).1 nofun
  | some a => exact ⟨a, ho, hb⟩

theorem yields_attempt_bind (hx : Yields x.run (some a) 0) {o : Option β}
    (hf : Yields (f a).run o n) : Yields (x >>= f).run o n := by
  rw [run_attempt_bind]
  exact hx.andThen hf

/-- An attempt that gives up reports an error, if something is known. -/
def Attempt.Tells (known : Prop) (x : Attempt α) : Prop := Assures known x.run (· ≠ none)

variable {known : Prop}

theorem Attempt.Tells.bind (h : x.Tells known)
    (h' : ∀ a, (f a).Tells (known ∧ Yields x.run (some a) 0)) : (x >>= f).Tells known := by
  unfold Attempt.Tells
  rw [run_attempt_bind]
  refine Assures.bind h.steady fun o => ?_
  cases o with
  | none => exact assures_pure fun ⟨hknown, hnone⟩ => absurd rfl (h.holds hknown none hnone)
  | some a => exact h' a

theorem tells_pure (a : α) : (pure a : Attempt α).Tells known := assures_pure fun _ => nofun

theorem tells_failure (h : ¬known) : (failure : Attempt α).Tells known :=
  assures_pure fun hknown => absurd hknown h

theorem tells_reject (p : Problem) : (Attempt.reject p : Attempt α).Tells known :=
  ⟨steady_reject p, fun _ _ h => nomatch h.errors {}⟩

theorem tells_lift {act : Report α} (h : Steady act) : (liftM act : Attempt α).Tells known :=
  Assures.bind h fun _ => assures_pure fun _ => nofun

theorem tells_ofExcept (v : Except Problem α) : (Attempt.ofExcept v).Tells known := by
  cases v with
  | ok a => exact tells_pure a
  | error p => exact tells_reject p

theorem Yields.of_lift {act : Report α} {a : α} (hact : Steady act)
    (h : Yields (liftM act : Attempt α).run (some a) 0) : Yields act a 0 := by
  obtain ⟨b, hb, h⟩ := h.of_bind hact fun _ => steady_pure _
  obtain ⟨hab, -⟩ := h.unique (yields_pure _)
  rwa [Option.some.inj hab]

/-- Some run of the attempt gives the value. -/
def Attempt.Gives (x : Attempt α) (a : α) : Prop := ∃ l, (x.run.run l).1 = some a

theorem Attempt.Gives.of_bind (h : (x >>= f).Gives b) : ∃ a, x.Gives a ∧ (f a).Gives b := by
  obtain ⟨l, h⟩ := h
  have hrun : (x >>= f).run.run l = StateT.run (match (x.run.run l).1 with
      | some a => (f a).run
      | none => pure none) (x.run.run l).2 := rfl
  rw [hrun] at h
  cases hx : (x.run.run l).1 with
  | none =>
    rw [hx] at h
    exact absurd h nofun
  | some a =>
    rw [hx] at h
    exact ⟨a, ⟨l, hx⟩, _, h⟩

theorem Yields.gives {a : α} (h : Yields x.run (some a) n) : x.Gives a := ⟨{}, h.value {}⟩

/-- A loop without errors gives something at every step, if the steps tell when they give up. -/
theorem Attempt.Tells.of_filterMapM (hf : ∀ a, (f a).Tells True) {as : List α} {bs : List β}
    (h : Yields (as.filterMapM fun a => (f a).run) bs 0) :
    List.Forall₂ (fun a b => (f a).Gives b) as bs := by
  obtain ⟨value, rfl, hvalue⟩ := h.of_filterMapM fun a => (hf a).steady
  clear h
  induction as with
  | nil => exact .nil
  | cons a as ih =>
    obtain ⟨ha, has⟩ := List.forall_mem_cons.1 hvalue
    obtain ⟨b, hb⟩ := Option.ne_none_iff_exists'.1 ((hf a).holds trivial _ ha)
    rw [List.filterMap_cons_some hb]
    exact .cons (Yields.gives (hb ▸ ha)) (ih has)

/-- What the attempt gives does not depend on the run. -/
theorem Attempt.Gives.unique {a' : α} (hx : Steady x.run) (h : x.Gives a) (h' : x.Gives a') :
    a = a' := by
  obtain ⟨o, n, ho⟩ := hx.yields
  obtain ⟨l, h⟩ := h
  obtain ⟨l', h'⟩ := h'
  rw [ho.value] at h h'
  exact Option.some.inj (h.symm.trans h')

theorem eq_of_gives_pure {a' : α} (h : (pure a : Attempt α).Gives a') : a' = a := by
  obtain ⟨l, h⟩ := h
  exact (Option.some.inj h).symm

theorem gives_of_lift {act : Report α} (h : (liftM act : Attempt α).Gives a) :
    ∃ l, (act.run l).1 = a := by
  obtain ⟨l, h⟩ := h
  exact ⟨l, Option.some.inj h⟩

theorem eq_some_of_gives_ofOption {v : Option α} (h : (Attempt.ofOption v).Gives a) :
    v = some a := by
  obtain ⟨l, h⟩ := h
  exact h

theorem eq_ok_of_gives_ofExcept {v : Except Problem α} (h : (Attempt.ofExcept v).Gives a) :
    v = .ok a := by
  cases v with
  | error problem =>
    obtain ⟨l, h⟩ := h
    exact absurd h nofun
  | ok a' => rw [eq_of_gives_pure h]

theorem not_gives_failure : ¬(failure : Attempt α).Gives a := nofun

theorem not_gives_reject {p : Problem} : ¬(Attempt.reject p : Attempt α).Gives a := nofun

/-- Every step of a loop gives its value. -/
theorem Attempt.Gives.of_mapM {as : List α} {bs : List β} (h : (as.mapM f).Gives bs) :
    List.Forall₂ (fun a b => (f a).Gives b) as bs := by
  induction as generalizing bs with
  | nil =>
    rw [List.mapM_nil] at h
    rw [eq_of_gives_pure h]
    exact .nil
  | cons a as ih =>
    rw [List.mapM_cons] at h
    obtain ⟨b, hb, h⟩ := h.of_bind
    obtain ⟨bs, hbs, h⟩ := h.of_bind
    rw [eq_of_gives_pure h]
    exact .cons hb (ih hbs)

end Attempt

end DataAccess
