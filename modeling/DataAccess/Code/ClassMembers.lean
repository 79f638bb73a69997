import DataAccess.Code.Block
import DataAccess.Text.NameSet

/-!
The members that the methods of a generated class share. A member is requested by a key; the first
request makes it and gives it a name of its own, and later ones find it.
-/

set_option autoImplicit false

namespace DataAccess.Code

structure Field where
  name : String
  type : String
  init : String
deriving DecidableEq, Repr

structure Method where
  name : String
  signature : String
  body : Block
  isAsync : Bool := false
deriving DecidableEq, Repr

def Method.render (base : Nat) (m : Method) : String :=
  Block.indent base ++ (if m.isAsync then "async " else "") ++ "fn " ++ m.name ++ m.signature ++
    " \x7b\n" ++ m.body.render (base + 1) ++ Block.indent base ++ "\x7d\n"

structure ClassMembers where
  className : String
  fields : List Field := []
  methods : List Method := []
  /-- Names of fields by their keys. -/
  fieldNames : List (String × String) := []
  /-- Names of methods by their keys. -/
  methodNames : List (String × String) := []
  usedNames : List String := ["db", "new"]
  /-- The converter classes that the database has to provide. -/
  requiredConverters : NameSet := .empty
deriving DecidableEq

/-- The text without its leading underscores. -/
def trimUnderscores (s : String) : String := String.ofList (s.toList.dropWhile (· = '_'))

namespace ClassMembers

def isEmpty (c : ClassMembers) : Bool := c.fields.isEmpty && c.methods.isEmpty

/-- The numbered forms of a name: itself, then with a number behind it. -/
def numbered (base : String) : Nat → String
  | 0 => base
  | n + 1 => base ++ "_" ++ toString (n + 1)

/-- The first unused numbered form from `n` on, looking at no more than `tries` used ones. -/
def freshFrom (used : List String) (base : String) : (tries n : Nat) → String
  | 0, n => numbered base n
  | tries + 1, n =>
    if used.contains (numbered base n) then freshFrom used base tries (n + 1) else numbered base n

/-- An unused name. The forms differ, so one more than are in use are enough to find it. -/
def freshName (c : ClassMembers) (base : String) : String :=
  freshFrom c.usedNames ("__" ++ trimUnderscores base) c.usedNames.length 0

/-- Takes an unused name. -/
def allocate (base : String) : StateM ClassMembers String := do
  let name := (← get).freshName base
  modify fun c => { c with usedNames := name :: c.usedNames }
  return name

def require (converterClass : String) : StateM ClassMembers Unit :=
  modify fun c => { c with requiredConverters := c.requiredConverters.insert converterClass }

/-- A field that is made on its first request: its type and its initial value. -/
structure FieldSpec where
  base : String
  key : String
  prepare : StateM ClassMembers (String × String)

/-- A method that is made on its first request, under the name that it is given. -/
structure MethodSpec where
  base : String
  key : String
  prepare : String → StateM ClassMembers Method

/-- The name of a shared field. -/
def field (spec : FieldSpec) : StateM ClassMembers String := do
  match (← get).fieldNames.lookup spec.key with
  | some name => return name
  | none =>
    let name ← allocate spec.base
    modify fun c => { c with fieldNames := (spec.key, name) :: c.fieldNames }
    let (type, init) ← spec.prepare
    modify fun c => { c with fields := c.fields ++ [⟨name, type, init⟩] }
    return name

/-- The name of a shared method. It is known before the method is made, so that a method can call
itself. -/
def method (spec : MethodSpec) : StateM ClassMembers String := do
  match (← get).methodNames.lookup spec.key with
  | some name => return name
  | none =>
    let name ← allocate spec.base
    modify fun c => { c with methodNames := (spec.key, name) :: c.methodNames }
    let m ← spec.prepare name
    modify fun c => { c with methods := c.methods ++ [m] }
    return name

end ClassMembers

end DataAccess.Code
