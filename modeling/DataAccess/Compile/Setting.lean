import DataAccess.Compile.Plugin
import DataAccess.Config
import DataAccess.Statement.EntityWrite

/-!
What the methods of one data access object are compiled with.
-/

set_option autoImplicit false

namespace DataAccess.Compile

open Delivery Rows Schema Sql

/-- Reports on a query text against the schema. -/
abbrev Verifier := String → ResultInfo

structure Setting extends Delivery.Setting where
  providers : Providers
  rewriters : List Rewriter := []
  /-- Absent when queries are not verified. -/
  verifier : Option Verifier := none

/-- Keeps a result only if no error was reported on the way. -/
def unlessReported {α : Type} (act : Report (Option α)) : Report (Option α) := do
  let before := (← get).errorCount
  let result ← act
  return if (← get).errorCount > before then none else result

namespace Setting

def requireCoroutines (s : Setting) : Report Unit := do
  if !s.environment.hasArtifact .coroutines then Report.error .missingCoroutines

/-- The delivery of what a query method reads. -/
def readBinder (s : Setting) (m : Method) (query : Query) : Report ReadBinder := do
  if m.suspend then
    s.requireCoroutines
    return ⟨.suspending, ← (Result.resolve s.store m.returns query).run⟩
  s.providers.readBinder s.toSetting m.returns query

/-- The delivery of the outcome of a method that writes. -/
def writeBinder (s : Setting) (m : Method) (target : WriteTarget) : Report WriteBinder := do
  if m.suspend then
    s.requireCoroutines
    return ⟨.suspending, target.result? m.returns⟩
  s.providers.writeBinder s.environment m.returns target

end Setting

/-- The parameters and the return type of a generated method. -/
def signature (params : List (String × TypeExpr)) (returns : String) : String :=
  let params := params.map fun (name, type) => name ++ ": " ++ type.display
  "(" ++ ", ".intercalate ("&self" :: params) ++ ") -> " ++ returns

end DataAccess.Compile
