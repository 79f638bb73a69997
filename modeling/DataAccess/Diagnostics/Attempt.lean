import DataAccess.Diagnostics.Log

/-!
Reporting code that may give up.
-/

set_option autoImplicit false

namespace DataAccess

abbrev Attempt := OptionT Report

namespace Attempt

/-- Reports a problem and gives up. -/
def reject {α : Type} (problem : Problem) : Attempt α := do
  Report.error problem
  failure

/-- Gives up when there is no value. -/
def ofOption {α : Type} (value : Option α) : Attempt α := OptionT.mk (pure value)

/-- Reports a failed resolution and gives up. -/
def ofExcept {α : Type} : Except Problem α → Attempt α
  | .ok value => pure value
  | .error problem => reject problem

end Attempt

end DataAccess
