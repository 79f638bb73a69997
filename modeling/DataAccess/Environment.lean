/-!
What a compiled project can use: the libraries whose types it may return, and the artifacts that
carry the runtime support for some of them.
-/

set_option autoImplicit false

namespace DataAccess

inductive Library where
  | lifecycle | paging | rx2 | rx3 | guava | coroutines
deriving DecidableEq, Repr

namespace Library

def all : List Library := [lifecycle, paging, rx2, rx3, guava, coroutines]

def name : Library → String
  | lifecycle => "lifecycle"
  | paging => "paging"
  | rx2 => "rx2"
  | rx3 => "rx3"
  | guava => "guava"
  | coroutines => "coroutines"

def ofName? (n : String) : Option Library := all.find? (·.name = n)

end Library

inductive Artifact where
  | coroutines | guava | rxJava2 | rxJava3
deriving DecidableEq, Repr

namespace Artifact

def all : List Artifact := [coroutines, guava, rxJava2, rxJava3]

def name : Artifact → String
  | coroutines => "daoc-coroutines"
  | guava => "daoc-guava"
  | rxJava2 => "daoc-rxjava2"
  | rxJava3 => "daoc-rxjava3"

def ofName? (n : String) : Option Artifact := all.find? (·.name = n)

end Artifact

/-- Libraries and artifacts, each list in the order of `all` and without repetition. -/
structure Environment where
  libraries : List Library := Library.all
  artifacts : List Artifact := Artifact.all
deriving DecidableEq, Repr

namespace Environment

def bare : Environment := ⟨[], []⟩

def ofLists (libraries : List Library) (artifacts : List Artifact) : Environment where
  libraries := Library.all.filter libraries.contains
  artifacts := Artifact.all.filter artifacts.contains

def hasLibrary (e : Environment) (l : Library) : Bool := e.libraries.contains l

def hasArtifact (e : Environment) (a : Artifact) : Bool := e.artifacts.contains a

def withoutLibrary (e : Environment) (l : Library) : Environment :=
  { e with libraries := e.libraries.filter (· ≠ l) }

def withoutArtifact (e : Environment) (a : Artifact) : Environment :=
  { e with artifacts := e.artifacts.filter (· ≠ a) }

end Environment

end DataAccess
