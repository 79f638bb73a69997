import DataAccess.Proofs.Diagnostics.Findings

/-!
Reporting into a buffer. Code that reports on a fork of a logger and has the fork's log written back
records what it would have recorded on the logger itself: which entries these are is told by the
anchor and the suppressed warnings that it starts with, and a fork starts with the same.
-/

set_option autoImplicit false

namespace DataAccess

/-- Code that reports. What follows a change of the anchor or of the suppressed warnings may depend on
what they were before, and what follows a buffered pass on its answer and its log, which can be written
back at once, later or not at all. -/
inductive Logging : Type → Type 1
  | done {α : Type} (a : α) : Logging α
  | error {α : Type} (problem : Problem) (rest : Logging α) : Logging α
  | note {α : Type} (problem : Problem) (rest : Logging α) : Logging α
  | warn {α : Type} (kind : Warning) (problem : Problem) (rest : Logging α) : Logging α
  | setAnchor {α : Type} (anchor : Option String) (rest : Option String → Logging α) : Logging α
  | suppress {α : Type} (kinds : List Warning) (rest : List Warning → Logging α) : Logging α
  | restore {α : Type} (kinds : List Warning) (rest : Logging α) : Logging α
  | collect {α β : Type} (body : Logging β) (rest : β → Log → Logging α) : Logging α
  | writeBack {α : Type} (log : Log) (rest : Logging α) : Logging α

namespace Logging

variable {α β : Type}

def run : {α : Type} → Logging α → Report α
  | _, done a => pure a
  | _, error problem rest => do Report.error problem; rest.run
  | _, note problem rest => do modify (·.note problem); rest.run
  | _, warn kind problem rest => do Report.warn kind problem; rest.run
  | _, setAnchor anchor rest => do
    let before := (← get).anchor
    modify (·.withAnchor anchor)
    (rest before).run
  | _, suppress kinds rest => do
    let before := (← get).suppressed
    modify (·.suppress kinds)
    (rest before).run
  | _, restore kinds rest => do modify ({ · with suppressed := kinds }); rest.run
  | _, collect body rest => do
    let (answer, log) ← Report.buffered body.run
    (rest answer log).run
  | _, writeBack log rest => do Report.replay log; rest.run

/-- A fork that reports and has its log written back. -/
def merge (body : Logging β) (rest : β → Logging α) : Logging α :=
  collect body fun answer log => writeBack log (rest answer)

/-- What the code answers and the entries that it records, under an anchor and with some warnings
suppressed: entries carry the anchor in force, and a warning that is suppressed is left out. -/
def outcome : {α : Type} → Logging α → Option String → List Warning → α × Log
  | _, done a, _, _ => (a, [])
  | _, error problem rest, anchor, kinds =>
    (rest.outcome anchor kinds).map id (⟨.error, problem, anchor⟩ :: ·)
  | _, note problem rest, anchor, kinds =>
    (rest.outcome anchor kinds).map id (⟨.note, problem, anchor⟩ :: ·)
  | _, warn kind problem rest, anchor, kinds =>
    (rest.outcome anchor kinds).map id
      (Log.without kinds [⟨.warning kind, problem, anchor⟩] ++ ·)
  | _, setAnchor anchor rest, before, kinds => (rest before).outcome anchor kinds
  | _, suppress more rest, anchor, kinds => (rest kinds).outcome anchor (kinds ++ more)
  | _, restore kinds rest, anchor, _ => rest.outcome anchor kinds
  | _, collect body rest, anchor, kinds =>
    let (answer, log) := body.outcome anchor kinds
    (rest answer log).outcome anchor kinds
  | _, writeBack log rest, anchor, kinds => (rest.outcome anchor kinds).map id (log ++ ·)

/-- A run gives the answer and puts the entries behind those of the log. -/
structure Records (act : Report α) (l : Logger) (outcome : α × Log) : Prop where
  answer : (act.run l).1 = outcome.1
  log : (act.run l).2.log = l.log ++ outcome.2

namespace Records

variable {act rest : Report α} {l l' : Logger} {outcome : α × Log}

/-- What goes on with a logger that has more entries records those entries first. -/
theorem after (h : Records rest l' outcome) (added : Log) (hrun : act.run l = rest.run l')
    (hlog : l'.log = l.log ++ added) : Records act l (outcome.map id (added ++ ·)) where
  answer := hrun ▸ h.answer
  log := by
    rw [hrun, h.log, hlog, List.append_assoc]
    rfl

/-- A change of the anchor or of the suppressed warnings records nothing. -/
theorem silently (h : Records rest l' outcome) (hrun : act.run l = rest.run l')
    (hlog : l'.log = l.log) : Records act l outcome where
  answer := hrun ▸ h.answer
  log := by rw [hrun, h.log, hlog]

/-- A buffered pass gives its outcome to the caller and leaves the logger alone. -/
theorem buffered (h : Records act l.fork outcome) : (Report.buffered act).run l = (outcome, l) := by
  have hrun : (Report.buffered act).run l = (((act.run l.fork).1, (act.run l.fork).2.log), l) := rfl
  have hlog : (act.run l.fork).2.log = outcome.2 := h.log
  rw [hrun, h.answer, hlog]

end Records

/-- What a run records is told by the anchor and the suppressed warnings that it starts with. -/
theorem records_run (p : Logging α) (l : Logger) :
    Records p.run l (p.outcome l.anchor l.suppressed) := by
  induction p generalizing l with
  | done a => exact ⟨rfl, (List.append_nil l.log).symm⟩
  | error problem rest ih => exact (ih (l.error problem)).after [_] rfl rfl
  | note problem rest ih => exact (ih (l.note problem)).after [_] rfl rfl
  | warn kind problem rest ih =>
    let recorded := Log.without l.suppressed [⟨.warning kind, problem, l.anchor⟩]
    have hwarn : ((Report.warn kind problem).run l).2 = l.replay recorded :=
      congrArg Prod.snd ((finds_warn kind problem).run l)
    have hrun : (warn kind problem rest).run.run l = rest.run.run (l.replay recorded) :=
      hwarn ▸ rfl
    exact (ih (l.replay recorded)).after recorded hrun rfl
  | setAnchor anchor rest ih => exact (ih l.anchor (l.withAnchor anchor)).silently rfl rfl
  | suppress kinds rest ih => exact (ih l.suppressed (l.suppress kinds)).silently rfl rfl
  | restore kinds rest ih => exact (ih { l with suppressed := kinds }).silently rfl rfl
  | collect body rest ihBody ihRest =>
    -- The fork has the anchor and the suppressed warnings of the logger.
    have hbody := (ihBody l.fork).buffered
    have hrun : (collect body rest).run.run l =
        (rest ((Report.buffered body.run).run l).1.1 ((Report.buffered body.run).run l).1.2).run.run
          ((Report.buffered body.run).run l).2 := rfl
    rw [hbody] at hrun
    exact (ihRest _ _ l).silently hrun rfl
  | writeBack log rest ih => exact (ih (l.replay log)).after log rfl rfl

/-- Buffering is transparent. Until its log is written back, a pass on a fork changes nothing of the
logger; the log holds the entries that a run on the logger itself adds, in order and with their
anchors; and once it is written back the logger has the log that such a run leaves, and its own anchor
and suppressed warnings. -/
theorem buffered_transparent (p : Logging α) (l : Logger) :
    let (answer, entries) := p.outcome l.anchor l.suppressed
    (p.run.run l).1 = answer ∧ (p.run.run l).2.log = l.log ++ entries ∧
      (Report.buffered p.run).run l = ((answer, entries), l) ∧
      (merge p done).run.run l = (answer, { l with log := (p.run.run l).2.log }) := by
  have hdirect := records_run p l
  have hbuffered := (records_run p l.fork).buffered
  refine ⟨hdirect.answer, hdirect.log, hbuffered, ?_⟩
  have hrun : (merge p done).run.run l = (((Report.buffered p.run).run l).1.1,
      ((Report.buffered p.run).run l).2.replay ((Report.buffered p.run).run l).1.2) := rfl
  rw [hrun, hbuffered, hdirect.log]
  rfl

/-- A pass that suppresses warnings for a while, has a pass of its own under another anchor, and drops
a last one. -/
def nestedPasses : Logging Nat :=
  suppress [.cursorMismatch] fun before =>
  warn .cursorMismatch .missingQuery <|
  merge
    (setAnchor (some "Dao::inner") fun _ =>
      restore before <|
      warn .cursorMismatch .missingQuery <|
      done 7) fun answer =>
  warn .cursorMismatch .missingQuery <|
  collect (error .missingQuery <| done ()) fun _ _ =>
  restore before <|
  note .missingQuery <|
  done answer

example : nestedPasses.outcome (some "Dao::load") [] =
    (7, [⟨.warning .cursorMismatch, .missingQuery, some "Dao::inner"⟩,
      ⟨.note, .missingQuery, some "Dao::load"⟩]) := by decide

end Logging

end DataAccess
