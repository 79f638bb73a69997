import DataAccess.Data.Value
import DataAccess.Diagnostics.Log

/-!
Diagnostics as data trees.
-/

set_option autoImplicit false

namespace DataAccess

open Data

/-- A diagnostic as an object; the anchor and the key are left out where there is none. -/
def Diagnostic.toValue (d : Diagnostic) : Value :=
  let extra (name : String) (value : Option String) : List (String × Value) :=
    value.toList.map fun v => (name, Value.string v)
  .object ([("severity", .string d.severity.name), ("message", .string d.message)] ++
    extra "anchor" d.anchor ++ extra "key" d.severity.key?)

def Log.toValue (log : Log) : Value := .list (log.map Diagnostic.toValue)

end DataAccess
