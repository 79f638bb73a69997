import DataAccess.Diagnostics.Problem
import DataAccess.Diagnostics.Warning

/-!
Diagnostics, and the logger that records them. A logger knows the declaration being processed (its
anchor) and the warnings suppressed there; a suppressed warning is never recorded.
-/

set_option autoImplicit false

namespace DataAccess

inductive Severity where
  | error
  /-- A warning, with the kind under which it can be suppressed. -/
  | warning (kind : Warning)
  | note
deriving DecidableEq, Repr

def Severity.name : Severity → String
  | error => "error"
  | warning _ => "warning"
  | note => "note"

def Severity.key? : Severity → Option String
  | warning kind => some kind.key
  | _ => none

structure Diagnostic where
  severity : Severity
  problem : Problem
  anchor : Option String := none
deriving DecidableEq, Repr

namespace Diagnostic

def message (d : Diagnostic) : String := d.problem.message

def isError (d : Diagnostic) : Bool := d.severity = .error

def isWarning (d : Diagnostic) : Bool := d.severity.key?.isSome

/-- One line of the report. -/
def render (d : Diagnostic) : String :=
  d.severity.name ++ ": " ++ (d.anchor.map fun a => "[" ++ a ++ "] ").getD "" ++ d.message ++
    (d.severity.key?.map fun k => " (" ++ k ++ ")").getD ""

end Diagnostic

abbrev Log := List Diagnostic

namespace Log

def errors (log : Log) : Log := log.filter Diagnostic.isError

def errorCount (log : Log) : Nat := log.errors.length

def warningCount (log : Log) : Nat := log.countP Diagnostic.isWarning

def hasErrors (log : Log) : Bool := log.any Diagnostic.isError

end Log

/-- The state of reporting: what was recorded so far, and under which declaration. -/
structure Logger where
  log : Log := []
  anchor : Option String := none
  suppressed : List Warning := []
deriving DecidableEq, Repr

namespace Logger

/-- A logger with an empty log, under the same declaration. -/
def fork (l : Logger) : Logger := { l with log := [] }

def isSuppressed (l : Logger) (kind : Warning) : Bool :=
  l.suppressed.contains .all || l.suppressed.contains kind

/-- Adds diagnostics that were recorded elsewhere as they are. -/
def replay (l : Logger) (log : Log) : Logger := { l with log := l.log ++ log }

def record (l : Logger) (severity : Severity) (problem : Problem) : Logger :=
  l.replay [⟨severity, problem, l.anchor⟩]

def error (l : Logger) (problem : Problem) : Logger := l.record .error problem

def note (l : Logger) (problem : Problem) : Logger := l.record .note problem

def warn (l : Logger) (kind : Warning) (problem : Problem) : Logger :=
  if l.isSuppressed kind then l else l.record (.warning kind) problem

def withAnchor (l : Logger) (anchor : Option String) : Logger := { l with anchor }

def suppress (l : Logger) (kinds : List Warning) : Logger :=
  { l with suppressed := l.suppressed ++ kinds }

def errorCount (l : Logger) : Nat := l.log.errorCount

end Logger

/-- Code that reports. -/
abbrev Report := StateM Logger

namespace Report

def error (problem : Problem) : Report Unit := modify (·.error problem)

def warn (kind : Warning) (problem : Problem) : Report Unit := modify (·.warn kind problem)

/-- Runs `act` under another anchor and restores the anchor afterwards. -/
def anchored {α : Type} (anchor : Option String) (act : Report α) : Report α := do
  let before := (← get).anchor
  modify (·.withAnchor anchor)
  let result ← act
  modify (·.withAnchor before)
  return result

/-- Runs `act` with more warnings suppressed and restores the suppressions afterwards. -/
def suppressing {α : Type} (kinds : List Warning) (act : Report α) : Report α := do
  let before := (← get).suppressed
  modify (·.suppress kinds)
  let result ← act
  modify ({ · with suppressed := before })
  return result

/-- Runs `act` on a fork and returns what it recorded without recording it here. -/
def buffered {α : Type} (act : Report α) : Report (α × Log) := do
  let (result, after) := act.run (← get).fork
  return (result, after.log)

/-- Records a buffered log. -/
def replay (log : Log) : Report Unit := modify (·.replay log)

end Report

end DataAccess
