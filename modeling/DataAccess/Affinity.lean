import DataAccess.TypeExpr

/-!
Column affinities: the storage class that a declared column type prefers, and the one that a
built-in type is stored with.
-/

set_option autoImplicit false

namespace DataAccess

inductive Affinity where
  | text | integer | real | blob
deriving DecidableEq, Repr

namespace Affinity

def all : List Affinity := [text, integer, real, blob]

def name : Affinity → String
  | text => "TEXT"
  | integer => "INTEGER"
  | real => "REAL"
  | blob => "BLOB"

def ofName? (n : String) : Option Affinity := all.find? (·.name = n)

/-- The affinity of a declared column type. A numeric or empty declaration has none. -/
def ofDeclaration? (declaration : String) : Option Affinity :=
  let upper := declaration.toList.map Char.toUpper
  let has (part : String) := Text.occursIn part.toList upper
  if has "INT" then some integer
  else if has "CHAR" || has "CLOB" || has "TEXT" then some text
  else if has "BLOB" then some blob
  else if has "REAL" || has "FLOA" || has "DOUB" then some real
  else none

def ofPrimitive : TypeExpr.Primitive → Affinity
  | .f32 | .f64 => real
  | .bool | .i8 | .i16 | .i32 | .i64 | .char => integer

/-- The affinity that values of a built-in type are stored with, optional or not. -/
def ofType? (t : TypeExpr) : Option Affinity :=
  let base := t.nonNull
  match base.primitive? with
  | some p => some (ofPrimitive p)
  | none =>
    if base.name = "String" then some text
    else if base.isByteVec || base.name = "Bytes" then some blob
    else none

end Affinity

end DataAccess
