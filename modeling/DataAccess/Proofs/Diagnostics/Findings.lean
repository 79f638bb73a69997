import DataAccess.Diagnostics.Log
import Mathlib.Data.List.Defs

/-!
What reporting code answers and what it finds. Both are the same in every run: the anchor in force
only says where a finding belongs, and the suppressed warnings only say which findings are left out
of the log.
-/

set_option autoImplicit false

namespace DataAccess

/-- Whether a diagnostic is a warning of a suppressed kind. -/
def Diagnostic.isSuppressedBy (kinds : List Warning) (d : Diagnostic) : Bool :=
  match d.severity with
  | .warning kind => kinds.contains .all || kinds.contains kind
  | _ => false

theorem Diagnostic.isSuppressedBy_append (d : Diagnostic) (kinds kinds' : List Warning) :
    d.isSuppressedBy (kinds ++ kinds') = (d.isSuppressedBy kinds || d.isSuppressedBy kinds') := by
  unfold Diagnostic.isSuppressedBy
  cases d.severity with
  | warning kind =>
    simp only [List.contains_eq_mem, List.mem_append, Bool.decide_or]
    ac_rfl
  | _ => rfl

namespace Log

/-- The log without the warnings of suppressed kinds. -/
def without (kinds : List Warning) (log : Log) : Log := log.filter (!·.isSuppressedBy kinds)

/-- The log with all diagnostics under one anchor. -/
def under (anchor : Option String) (log : Log) : Log := log.map fun d => { d with anchor }

theorem without_append (kinds : List Warning) (log log' : Log) :
    without kinds (log ++ log') = log.without kinds ++ log'.without kinds := List.filter_append ..

theorem without_flatMap {α : Type} (kinds : List Warning) (xs : List α) (log : α → Log) :
    without kinds (xs.flatMap log) = xs.flatMap fun x => (log x).without kinds := List.filter_flatMap ..

theorem mem_of_mem_without {kinds : List Warning} {log : Log} {d : Diagnostic}
    (h : d ∈ log.without kinds) : d ∈ log := (List.mem_filter.1 h).1

@[simp] theorem without_nil (log : Log) : log.without [] = log := by
  refine List.filter_eq_self.2 fun d _ => ?_
  unfold Diagnostic.isSuppressedBy
  cases d.severity <;> rfl

/-- Suppressing inside a suppression adds to it. -/
theorem without_without (kinds kinds' : List Warning) (log : Log) :
    (log.without kinds').without kinds = log.without (kinds ++ kinds') := by
  simp only [without, List.filter_filter]
  refine List.filter_congr fun d _ => ?_
  rw [d.isSuppressedBy_append, Bool.not_or]

/-- Errors are never suppressed. -/
@[simp] theorem errors_without (kinds : List Warning) (log : Log) :
    (log.without kinds).errors = log.errors := by
  simp only [without, errors, List.filter_filter]
  refine List.filter_congr fun d _ => ?_
  cases h : d.severity <;> simp [Diagnostic.isError, Diagnostic.isSuppressedBy, h]

/-- A log of errors is recorded whole. -/
theorem without_of_forall_isError {kinds : List Warning} {log : Log}
    (h : ∀ d ∈ log, d.isError = true) : log.without kinds = log := by
  refine List.filter_eq_self.2 fun d hd => ?_
  have herror : d.severity = .error := of_decide_eq_true (h d hd)
  rw [Diagnostic.isSuppressedBy, herror]
  rfl

@[simp] theorem errors_append (log log' : Log) : errors (log ++ log') = log.errors ++ log'.errors :=
  List.filter_append ..

theorem errors_flatMap {α : Type} (xs : List α) (log : α → Log) :
    errors (xs.flatMap log) = xs.flatMap fun x => (log x).errors := List.filter_flatMap ..

theorem under_append (anchor : Option String) (log log' : Log) :
    under anchor (log ++ log') = log.under anchor ++ log'.under anchor := List.map_append

theorem errors_under (anchor : Option String) (log : Log) :
    (log.under anchor).errors = log.errors.under anchor := List.filter_map

@[simp] theorem under_eq_nil_iff {anchor : Option String} {log : Log} :
    log.under anchor = [] ↔ log = [] := List.map_eq_nil_iff

theorem anchor_of_mem_under {anchor : Option String} {log : Log} {d : Diagnostic}
    (h : d ∈ log.under anchor) : d.anchor = anchor := by
  obtain ⟨_, -, rfl⟩ := List.mem_map.1 h
  rfl

end Log

namespace Logger

@[simp] theorem replay_nil (l : Logger) : l.replay [] = l := by simp [replay]

theorem replay_replay (l : Logger) (log log' : Log) :
    (l.replay log).replay log' = l.replay (log ++ log') := by
  simp [replay, List.append_assoc]

theorem isSuppressedBy_warning (l : Logger) (kind : Warning) (p : Problem) (a : Option String) :
    Diagnostic.isSuppressedBy l.suppressed ⟨.warning kind, p, a⟩ = l.isSuppressed kind := rfl

end Logger

/-- The action answers `a` in every run and adds to the log what it finds under the anchor in force,
without the warnings that are suppressed. -/
structure Finds {α : Type} (act : Report α) (a : α) (found : Option String → Log) : Prop where
  run : ∀ l, act.run l = (a, l.replay ((found l.anchor).without l.suppressed))

/-- What an action answers. -/
def Report.answer {α : Type} (act : Report α) : α := (act.run {}).1

/-- What an action finds, with nothing suppressed. -/
def Report.findings {α : Type} (act : Report α) : Log := (act.run {}).2.log

section Finds

variable {α β : Type} {act : Report α} {f : α → Report β} {a : α} {b : β}
  {found found' : Option String → Log}

theorem Finds.answer_eq (h : Finds act a found) : act.answer = a := by rw [Report.answer, h.run]

theorem Finds.findings_eq (h : Finds act a found) : act.findings = found none := by
  rw [Report.findings, h.run]
  simp [Logger.replay]

/-- An action whose findings have anchors of their own is told by its answer and its findings. -/
theorem Finds.settled {log : Log} (h : Finds act a fun _ => log) :
    Finds act act.answer fun _ => act.findings := by
  rwa [h.answer_eq, h.findings_eq]

theorem finds_pure (a : α) : Finds (pure a : Report α) a fun _ => [] :=
  ⟨fun l => congrArg (a, ·) l.replay_nil.symm⟩

theorem finds_error (p : Problem) :
    Finds (Report.error p) () fun anchor => [⟨.error, p, anchor⟩] := ⟨fun _ => rfl⟩

theorem finds_warn (kind : Warning) (p : Problem) :
    Finds (Report.warn kind p) () fun anchor => [⟨.warning kind, p, anchor⟩] := by
  refine ⟨fun l => ?_⟩
  have hrun : (Report.warn kind p).run l = ((), l.warn kind p) := rfl
  rw [hrun, Logger.warn]
  simp only [Log.without, List.filter_cons, l.isSuppressedBy_warning, List.filter_nil]
  by_cases h : l.isSuppressed kind = true
  · simp [h]
  · simp only [h, Bool.false_eq_true, if_false, Bool.not_false, if_true]
    rfl

theorem Finds.bind (h : Finds act a found) (h' : Finds (f a) b found') :
    Finds (act >>= f) b fun anchor => found anchor ++ found' anchor := by
  refine ⟨fun l => ?_⟩
  have hrun : (act >>= f).run l = (f (act.run l).1).run (act.run l).2 := rfl
  rw [hrun, h.run, h'.run, Logger.replay_replay, Log.without_append]
  rfl

theorem Finds.map (g : α → β) (h : Finds act a found) : Finds (g <$> act) (g a) found := by
  have hmap := h.bind (f := fun a => pure (g a)) (finds_pure (g a))
  simp only [List.append_nil] at hmap
  exact hmap

theorem Finds.mapM {g : α → Report β} {value : α → β} {log : α → Option String → Log}
    (h : ∀ a, Finds (g a) (value a) (log a)) (xs : List α) :
    Finds (xs.mapM g) (xs.map value) fun anchor => xs.flatMap (log · anchor) := by
  induction xs with
  | nil => exact finds_pure []
  | cons x xs ih =>
    rw [List.mapM_cons]
    have htail := ih.bind (f := fun bs => pure (value x :: bs)) (finds_pure _)
    simp only [List.append_nil] at htail
    exact (h x).bind htail

theorem Finds.filterMapM {g : α → Report (Option β)} {value : α → Option β}
    {log : α → Option String → Log} (h : ∀ a, Finds (g a) (value a) (log a)) (xs : List α) :
    Finds (xs.filterMapM g) (xs.filterMap value) fun anchor => xs.flatMap (log · anchor) := by
  have hloop : ∀ (xs : List α) (acc : List β), Finds (List.filterMapM.loop g xs acc)
      (acc.reverse ++ xs.filterMap value) fun anchor => xs.flatMap (log · anchor) := by
    intro xs
    induction xs with
    | nil =>
      intro acc
      rw [List.filterMap_nil, List.append_nil]
      exact finds_pure _
    | cons x xs ih =>
      intro acc
      unfold List.filterMapM.loop
      refine (h x).bind ?_
      rw [List.filterMap_cons]
      cases value x with
      | none => exact ih acc
      | some b =>
        have htail := ih (b :: acc)
        rw [List.reverse_cons, List.append_assoc] at htail
        exact htail
  exact hloop xs []

theorem Finds.forM {g : α → Report PUnit} {log : α → Option String → Log}
    (h : ∀ a, Finds (g a) PUnit.unit (log a)) (xs : List α) :
    Finds (xs.forM g) PUnit.unit fun anchor => xs.flatMap (log · anchor) := by
  induction xs with
  | nil => exact finds_pure PUnit.unit
  | cons x xs ih => exact (h x).bind (f := fun _ => xs.forM g) ih

/-- What is found under an anchor of its own belongs there, wherever the action runs. -/
theorem Finds.anchored (anchor : Option String) (h : Finds act a found) :
    Finds (Report.anchored anchor act) a fun _ => found anchor := by
  refine ⟨fun l => ?_⟩
  have hrun : (Report.anchored anchor act).run l = ((act.run (l.withAnchor anchor)).1,
      (act.run (l.withAnchor anchor)).2.withAnchor l.anchor) := rfl
  rw [hrun, h.run]
  rfl

/-- What is suppressed inside an action is not found by it. -/
theorem Finds.suppressing (kinds : List Warning) (h : Finds act a found) :
    Finds (Report.suppressing kinds act) a fun anchor => (found anchor).without kinds := by
  refine ⟨fun l => ?_⟩
  have hrun : (Report.suppressing kinds act).run l = ((act.run (l.suppress kinds)).1,
      { (act.run (l.suppress kinds)).2 with suppressed := l.suppressed }) := rfl
  rw [hrun, h.run, Log.without_without]
  rfl

/-- What an action finds under an anchor. -/
theorem Finds.told (h : Finds act a found) :
    Finds act act.answer fun anchor => (Report.anchored anchor act).findings := by
  have hfound : found = fun anchor => (Report.anchored anchor act).findings :=
    funext fun anchor => ((h.anchored anchor).findings_eq).symm
  rwa [h.answer_eq, ← hfound]

end Finds

end DataAccess
