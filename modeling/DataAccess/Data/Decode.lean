import DataAccess.Data.Value

/-!
Reading typed values out of data trees. A reader answers `none` for a value of another form.
-/

set_option autoImplicit false

namespace DataAccess.Data

namespace Value

def string? : Value → Option String
  | string s => some s
  | _ => none

def bool? : Value → Option Bool
  | bool b => some b
  | _ => none

/-- A natural number of 64 bits. -/
def nat? : Value → Option Nat
  | int i => if 0 ≤ i ∧ i < 0x10000000000000000 then some i.toNat else none
  | _ => none

/-- An integer of 32 bits. -/
def int32? : Value → Option Int
  | int i => if -0x80000000 ≤ i ∧ i < 0x80000000 then some i else none
  | _ => none

def listOf? {α : Type} (item : Value → Option α) : Value → Option (List α)
  | list items => items.mapM item
  | _ => none

/-- A value that may be null. -/
def orNull? {α : Type} (item : Value → Option α) : Value → Option (Option α)
  | null => some none
  | v => (item v).map some

/-- One of the values of an enumeration: its name, or an object whose one member has the name and
is null. -/
def oneOf? {α : Type} (all : List α) (name : α → String) : Value → Option α
  | string s | object [(s, null)] => all.find? (name · = s)
  | _ => none

end Value

/-- The known members of a structure, each at most once. -/
abbrev Members := List (String × Value)

namespace Members

/-- The members of an object; other members are ignored. -/
def ofObject? (names : List String) : Value → Option Members
  | .object members =>
    let known := members.filter fun m => names.contains m.1
    if (known.map Prod.fst).Nodup then some known else none
  | _ => none

/-- The members of a structure, which can also be written as a list of values in order. -/
def of? (names : List String) : Value → Option Members
  | .list items => if items.length ≤ names.length then some (names.zip items) else none
  | v => ofObject? names v

def find? (ms : Members) (name : String) : Option Value := ms.lookup name

def required? {α : Type} (ms : Members) (name : String) (item : Value → Option α) : Option α :=
  (ms.find? name).bind item

/-- A member that has a value when it is left out. -/
def defaulted? {α : Type} (ms : Members) (name : String) (item : Value → Option α) (default : α) :
    Option α :=
  match ms.find? name with
  | some v => item v
  | none => some default

def strings? (ms : Members) (name : String) : Option (List String) :=
  ms.defaulted? name (Value.listOf? Value.string?) []

def list? {α : Type} (ms : Members) (name : String) (item : Value → Option α) : Option (List α) :=
  ms.defaulted? name (Value.listOf? item) []

/-- A member that may be null or left out. -/
def nullable? {α : Type} (ms : Members) (name : String) (item : Value → Option α) :
    Option (Option α) :=
  ms.defaulted? name (Value.orNull? item) none

end Members

end DataAccess.Data
