import DataAccess.Proofs.Diagnostics.Reports
import Mathlib.Data.List.Forall2

/-!
What fails is reported, and what is reported fails. Reporting code is followed one action after the
other: each takes over whether something counted was reported before it, and hands on whether its
answer is a failure.
-/

set_option autoImplicit false

namespace DataAccess

theorem Log.hasErrors_iff {log : Log} : log.hasErrors = true ↔ log.errors ≠ [] := by
  simp [Log.hasErrors, Log.errors, List.filter_eq_nil_iff]

/-- The action finds the same in every run, and its answer is a failure exactly when a diagnostic that
counts was reported before or is reported by it. -/
def Accounts {α : Type} (counts : Diagnostic → Bool) (before : Prop) (act : Report α)
    (fails : α → Prop) : Prop :=
  ∃ a log, Finds act a (Log.under · log) ∧ (fails a ↔ before ∨ log.any counts = true)

/-- All errors count. -/
def CountsErrors (counts : Diagnostic → Bool) : Prop :=
  ∀ d : Diagnostic, d.isError = true → counts d = true

theorem countsErrors_isError : CountsErrors Diagnostic.isError := fun _ h => h

/-- Everything counts. -/
theorem countsErrors_true : CountsErrors fun _ => true := fun _ _ => rfl

section Accounts

variable {α β : Type} {counts : Diagnostic → Bool} {before : Prop} {act : Report α}
  {f : α → Report β} {fails : α → Prop}

theorem Accounts.steady (h : Accounts counts before act fails) : Steady act := by
  obtain ⟨a, log, ha, -⟩ := h
  exact ⟨a, log, ha⟩

theorem Accounts.bind {failsAfter : β → Prop} (h : Accounts counts before act fails)
    (hf : ∀ a, Accounts counts (fails a) (f a) failsAfter) :
    Accounts counts before (act >>= f) failsAfter := by
  obtain ⟨a, log, ha, hfails⟩ := h
  obtain ⟨b, log', hb, hfails'⟩ := hf a
  refine ⟨b, log ++ log', ?_, ?_⟩
  · simp only [Log.under_append]
    exact ha.bind hb
  · rw [hfails', hfails, List.any_append, Bool.or_eq_true, or_assoc]

/-- What was reported before is a failure as well. -/
theorem Accounts.after (h : Accounts counts False act fails) :
    Accounts counts before act fun a => before ∨ fails a := by
  obtain ⟨a, log, ha, hiff⟩ := h
  exact ⟨a, log, ha, or_congr_right (hiff.trans (or_iff_right not_false))⟩

theorem accounts_pure {a : α} (h : fails a ↔ before) : Accounts counts before (pure a) fails :=
  ⟨a, [], finds_pure a, by simpa using h⟩

/-- An error before a failure. -/
theorem accounts_error (hcounts : CountsErrors counts) (p : Problem) {a : α} (h : fails a) :
    Accounts counts before (do Report.error p; return a) fails := by
  refine ⟨a, [⟨.error, p, none⟩], ?_, iff_of_true h (.inr ?_)⟩
  · exact (finds_error p).bind (f := fun _ => pure a) (finds_pure a)
  · simpa using hcounts _ rfl

/-- An error for each member of a list. -/
theorem accounts_forM_error (hcounts : CountsErrors counts) (problem : α → Problem) (as : List α) :
    Accounts counts before (as.forM fun a => Report.error (problem a))
      fun _ => before ∨ as ≠ [] := by
  refine ⟨⟨⟩, as.map fun a => ⟨.error, problem a, none⟩, ?_, ?_⟩
  · have hfound := Finds.forM (g := fun a => Report.error (problem a)) (fun _ => finds_error _) as
    simp only [← List.map_eq_flatMap] at hfound
    simp only [Log.under, List.map_map]
    exact hfound
  · have hall : ∀ a ∈ as, counts ⟨.error, problem a, none⟩ = true := fun _ _ => hcounts _ rfl
    cases as with
    | nil => simp
    | cons a as => simp [hall a List.mem_cons_self]

/-- A warning that does not count, under a condition. -/
theorem Accounts.warned {c : Bool} {kind : Warning} {p : Problem} {rest : Report α}
    (hcounts : ∀ anchor, counts ⟨.warning kind, p, anchor⟩ = false)
    (h : Accounts counts before rest fails) :
    Accounts counts before (do
      if c then Report.warn kind p
      rest) fails := by
  cases c with
  | false => exact h
  | true =>
    have hwarn : Accounts counts before (Report.warn kind p) fun _ => before :=
      ⟨(), [⟨.warning kind, p, none⟩], finds_warn kind p, by simp [hcounts]⟩
    exact hwarn.bind fun _ => h

end Accounts

/-! Attempts that report their failures. -/

namespace Attempt

variable {α β : Type} {counts : Diagnostic → Bool} {x : Attempt α} {f : α → Attempt β}

/-- The attempt gives up exactly when it reports something that counts. -/
def Accounts (counts : Diagnostic → Bool) (x : Attempt α) : Prop :=
  DataAccess.Accounts counts False x.run (· = none)

theorem Accounts.bind (hx : x.Accounts counts) (hf : ∀ a, (f a).Accounts counts) :
    (x >>= f).Accounts counts := by
  rw [Accounts, run_attempt_bind]
  refine DataAccess.Accounts.bind hx fun o => ?_
  cases o with
  | none => exact DataAccess.accounts_pure (by simp)
  | some a =>
    obtain ⟨b, log, hb, hiff⟩ := hf a
    exact ⟨b, log, hb, by simpa using hiff⟩

/-- An action that reports within an attempt. -/
theorem accounts_lift_bind {before : Prop} {act : Report α} {fails : α → Prop}
    {failsAfter : Option β → Prop} (h : DataAccess.Accounts counts before act fails)
    (hf : ∀ a, DataAccess.Accounts counts (fails a) (f a).run failsAfter) :
    DataAccess.Accounts counts before (liftM act >>= f : Attempt β).run failsAfter :=
  DataAccess.Accounts.bind h hf

theorem accounts_pure (a : α) : (pure a : Attempt α).Accounts counts :=
  DataAccess.accounts_pure (by simp)

theorem accounts_reject (hcounts : CountsErrors counts) (p : Problem) :
    (Attempt.reject p : Attempt α).Accounts counts :=
  accounts_error (a := none) hcounts p rfl

theorem accounts_ofExcept (hcounts : CountsErrors counts) (v : Except Problem α) :
    (Attempt.ofExcept v).Accounts counts := by
  cases v with
  | ok a => exact accounts_pure a
  | error p => exact accounts_reject hcounts p

/-- A check before everything else. -/
theorem Accounts.unless (hcounts : CountsErrors counts) {c : Prop} [Decidable c] {p : Problem}
    (h : x.Accounts counts) :
    Accounts counts (if c then do Attempt.reject (α := Unit) p; x else x) := by
  split
  · exact (accounts_reject hcounts p).bind fun _ => h
  · exact h

/-- Makes all attempts, whatever becomes of them. -/
def each (f : α → Attempt β) (as : List α) : Report (List (Option β)) := as.mapM fun a => (f a).run

/-- Makes all attempts before it gives up. -/
def all (f : α → Attempt β) (as : List α) : Attempt (List β) := do
  let answers ← each f as
  Attempt.ofOption (answers.mapM id)

/-- Of several attempts one fails exactly when something that counts is reported. -/
theorem accounts_each (hf : ∀ a, (f a).Accounts counts) (as : List α) :
    DataAccess.Accounts counts False (each f as) (·.mapM id = none) := by
  induction as with
  | nil => exact DataAccess.accounts_pure (by simp)
  | cons a as ih =>
    rw [each, List.mapM_cons]
    refine DataAccess.Accounts.bind (hf a) fun o => ih.after.bind fun os => ?_
    refine DataAccess.accounts_pure ?_
    cases o with
    | none => simp
    | some b => cases h : os.mapM id <;> simp [h]

theorem accounts_all (hf : ∀ a, (f a).Accounts counts) (as : List α) :
    (all f as).Accounts counts :=
  DataAccess.Accounts.bind (accounts_each hf as) fun _ => DataAccess.accounts_pure Iff.rfl

/-- A loop that only reports does not give up. -/
theorem mapM_lift (g : α → Report β) (as : List α) :
    (as.mapM fun a => (liftM (g a) : Attempt β)) = liftM (as.mapM g) := by
  induction as with
  | nil => rfl
  | cons a as ih =>
    rw [List.mapM_cons, List.mapM_cons, ih]
    rfl

/-- An attempt that accounts for itself adds an error to the log exactly when it gives up. -/
theorem Accounts.run (h : x.Accounts Diagnostic.isError) (l : Logger) :
    ∃ log, (x.run.run l).2 = l.replay log ∧ ((x.run.run l).1 = none ↔ log.hasErrors = true) := by
  obtain ⟨o, log, ho, hiff⟩ := h
  have hnone : o = none ↔ log.hasErrors = true := hiff.trans (or_iff_right not_false)
  refine ⟨(log.under l.anchor).without l.suppressed, by rw [ho.run], ?_⟩
  rw [ho.run, hnone, Log.hasErrors_iff, Log.hasErrors_iff, Log.errors_without, Log.errors_under,
    ne_eq, ne_eq, Log.under_eq_nil_iff]

/-- An attempt that reports nothing but its failures succeeds silently. -/
theorem Accounts.finds (h : x.Accounts fun _ => true) {a : α} (ha : x.Gives a) :
    Finds x.run (some a) fun _ => [] := by
  obtain ⟨o, log, ho, hiff⟩ := h
  obtain ⟨l, hl⟩ := ha
  rw [ho.run] at hl
  obtain rfl : o = some a := hl
  have hnone : log = [] := by
    cases log with
    | nil => rfl
    | cons d log => exact absurd (hiff.2 (.inr rfl)) nofun
  rwa [hnone] at ho

/-! What attempts give together. -/

theorem Gives.bind {a : α} {b : β} (hx : Steady x.run) (hf : Steady (f a).run) (ha : x.Gives a)
    (hb : (f a).Gives b) : (x >>= f).Gives b := by
  obtain ⟨o, m, ho⟩ := hx.yields
  obtain ⟨o', n, ho'⟩ := hf.yields
  obtain ⟨l, hl⟩ := ha
  obtain ⟨l', hl'⟩ := hb
  rw [ho.value] at hl
  rw [ho'.value] at hl'
  subst hl hl'
  have hboth : Yields (x >>= f).run (some b) (m + n) := by
    rw [run_attempt_bind]
    exact ho.bind ho'
  exact hboth.gives

/-- Whether an attempt gives something does not depend on the run. -/
theorem isSome_run_iff (hx : Steady x.run) (l : Logger) :
    (x.run.run l).1.isSome = true ↔ ∃ a, x.Gives a := by
  rw [Option.isSome_iff_exists]
  obtain ⟨o, n, ho⟩ := hx.yields
  constructor
  · rintro ⟨a, ha⟩
    exact ⟨a, l, ha⟩
  · rintro ⟨a, l', ha⟩
    exact ⟨a, (ho.value l).trans ((ho.value l').symm.trans ha)⟩

theorem gives_iff (hx : Steady x.run) {a : α} : x.Gives a ↔ x.run.answer = some a := by
  obtain ⟨o, n, ho⟩ := hx.yields
  constructor
  · rintro ⟨l, hl⟩
    rw [Report.answer, ho.value, ← ho.value l, hl]
  · exact fun h => ⟨{}, h⟩

theorem mapM_eq_some_iff {g : α → Option β} {as : List α} {bs : List β} :
    as.mapM g = some bs ↔ List.Forall₂ (fun a b => g a = some b) as bs := by
  induction as generalizing bs with
  | nil => simp [eq_comm]
  | cons a as ih =>
    simp only [List.mapM_cons, bind, pure, Option.bind_eq_some_iff, Option.some.injEq, ih,
      List.forall₂_cons_left_iff]
    constructor
    · rintro ⟨b, hb, rest, hrest, rfl⟩
      exact ⟨b, rest, hb, hrest, rfl⟩
    · rintro ⟨b, rest, hb, hrest, rfl⟩
      exact ⟨b, hb, rest, hrest, rfl⟩

theorem steady_all (hf : ∀ a, Steady (f a).run) (as : List α) : Steady (all f as).run :=
  steady_attempt_bind (steady_attempt_lift (.mapM hf as)) fun _ => steady_ofOption _

/-- All attempts together give what each of them gives. -/
theorem gives_all_iff (hf : ∀ a, Steady (f a).run) {as : List α} {bs : List β} :
    (all f as).Gives bs ↔ List.Forall₂ (fun a b => (f a).Gives b) as bs := by
  have heach : (each f as).answer = as.map fun a => (f a).run.answer := by
    choose value log hlog using hf
    have hvalue : ∀ a, (f a).run.answer = value a := fun a => (hlog a).answer_eq
    simp only [hvalue]
    exact (Finds.mapM hlog as).answer_eq
  have hanswer : (all f as).run.answer = ((each f as).answer).mapM id := rfl
  simp only [gives_iff (steady_all hf as), gives_iff (hf _), hanswer, heach, List.mapM_map,
    ← mapM_eq_some_iff]
  rfl

end Attempt

end DataAccess
