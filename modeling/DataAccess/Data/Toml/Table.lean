import DataAccess.Data.Value

/-!
Tables under construction. A table is defined once: by a header, by the dotted keys that lead into
it, or implicitly by the headers of tables inside it; only the last kind can still get a header.
-/

set_option autoImplicit false

namespace DataAccess.Data.Toml

mutual

inductive Item where
  /-- A finished value, arrays and tables in braces included. -/
  | value (v : Value)
  | table (t : Table)
  /-- The tables of an array, the last one first. -/
  | tables (reversed : List Table)

inductive Table where
  | mk (isImplicit isDotted : Bool) (items : List (String × Item))

end

instance : Inhabited Table := ⟨.mk false false []⟩

namespace Table

def isImplicit : Table → Bool
  | mk implicit _ _ => implicit

def isDotted : Table → Bool
  | mk _ dotted _ => dotted

def items : Table → List (String × Item)
  | mk _ _ items => items

def empty : Table := .mk false false []

def find? (t : Table) (key : String) : Option Item := t.items.lookup key

/-- Sets the item under a key. -/
def set (t : Table) (key : String) (item : Item) : Table :=
  let rest := t.items.filter (·.1 ≠ key)
  .mk t.isImplicit t.isDotted (rest ++ [(key, item)])

/-- Changes the table at the end of a path; the tables on the way are made where they are missing.
Dotted keys cannot lead into a table that has a definition of its own. -/
def update (isDotted : Bool) (change : Table → Option Table) :
    (path : List String) → Table → Option Table
  | [], t => change t
  | key :: path, t =>
    match t.find? key with
    | none => do
      let child ← update isDotted change path (.mk true isDotted [])
      return t.set key (.table child)
    | some (.value _) => none
    | some (.tables []) => none
    | some (.tables (last :: before)) => do
      let last ← update isDotted change path last
      return t.set key (.tables (last :: before))
    | some (.table child) =>
      if isDotted && !child.isImplicit then none
      else do
        let child ← update isDotted change path child
        return t.set key (.table child)

/-- Adds a value under a dotted key, which has to be new. -/
def insert (t : Table) (path : List String) (key : String) (v : Value) : Option Table :=
  update true (fun inner =>
    if inner.isDotted = path.isEmpty || (inner.find? key).isSome then none
    else some (inner.set key (.value v))) path t

mutual

def toValue : Table → Value
  | .mk _ _ items => .object (itemsToValues items)

def itemsToValues : List (String × Item) → List (String × Value)
  | [] => []
  | (key, item) :: rest => (key, itemToValue item) :: itemsToValues rest

def itemToValue : Item → Value
  | .value v => v
  | .table t => toValue t
  | .tables reversed => .list (toValues reversed).reverse

def toValues : List Table → List Value
  | [] => []
  | t :: rest => toValue t :: toValues rest

end

end Table

end DataAccess.Data.Toml
