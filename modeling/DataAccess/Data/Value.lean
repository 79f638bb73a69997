/-!
Data trees, as they are read from declaration and configuration files.
-/

set_option autoImplicit false

namespace DataAccess.Data

inductive Value where
  | null
  | bool (b : Bool)
  | int (i : Int)
  /-- A number that is no integer, as it is written. -/
  | decimal (text : String)
  /-- A date or a time, as it is written. -/
  | date (text : String)
  | string (s : String)
  | list (items : List Value)
  /-- Members in order; a key can occur more than once. -/
  | object (members : List (String × Value))
deriving Inhabited, Repr

namespace Value

/-- The last member of an object under a key. -/
def member? (v : Value) (key : String) : Option Value :=
  match v with
  | object members => (members.reverse.find? (·.1 = key)).map Prod.snd
  | _ => none

end Value

end DataAccess.Data
