import DataAccess.Affinity
import DataAccess.Convert.Converter

/-!
The types that a column holds without a converter, and how values are bound to statements and read
from cursors, converted where that is needed.
-/

set_option autoImplicit false

namespace DataAccess.Convert

open Code

inductive ColumnForm where
  | scalar (p : TypeExpr.Primitive)
  | string
  | byteVec
  | buffer
deriving DecidableEq, Repr

namespace ColumnForm

/-- Every form; a `bool` is not one, since it is stored as an integer by a converter. -/
def all : List ColumnForm :=
  (TypeExpr.Primitive.all.filter (· ≠ .bool)).map scalar ++ [string, byteVec, buffer]

def type : ColumnForm → TypeExpr
  | scalar p => p.type
  | string => .string
  | byteVec => .vecOf (.simple "u8")
  | buffer => .bytes

def affinity : ColumnForm → Affinity
  | scalar p => Affinity.ofPrimitive p
  | string => .text
  | byteVec | buffer => .blob

/-- The expression that reads a value at `index`. -/
def readExpr (form : ColumnForm) (cursor index : String) : String :=
  let get (method : String) := cursor ++ "." ++ method ++ "(" ++ index ++ ")"
  match form with
  | scalar .i64 => get "get_long"
  | scalar .i32 => get "get_int"
  | scalar .i16 => get "get_short"
  | scalar .i8 => get "get_short" ++ " as i8"
  | scalar .f64 => get "get_double"
  | scalar .f32 => get "get_float"
  | scalar .char => "char::from_u32(" ++ get "get_int" ++ " as u32).unwrap_or_default()"
  | scalar .bool => get "get_int" ++ " != 0"
  | string => get "get_string"
  | byteVec => get "get_blob"
  | buffer => "Bytes::from(" ++ get "get_blob" ++ ")"

/-- The call that binds `value` at `index`. The value is behind a reference when `borrowed`. -/
def bindExpr (form : ColumnForm) (borrowed : Bool) (stmt index value : String) : String :=
  let bind (method argument : String) :=
    stmt ++ "." ++ method ++ "(" ++ index ++ ", " ++ argument ++ ")"
  let copied := if borrowed then "*" ++ value else value
  match form with
  | scalar p =>
    if Affinity.ofPrimitive p = .real then bind "bind_double" (copied ++ " as f64")
    else bind "bind_long" (copied ++ " as i64")
  | string => bind "bind_string" (if borrowed then value else "&" ++ value)
  | byteVec | buffer => bind "bind_blob" (value ++ ".as_ref()")

end ColumnForm

/-- A built-in type of columns. -/
structure ColumnType where
  form : ColumnForm
  optional : Bool
deriving DecidableEq, Repr

namespace ColumnType

def all : List ColumnType := ColumnForm.all.flatMap fun form => [⟨form, false⟩, ⟨form, true⟩]

def type (c : ColumnType) : TypeExpr := if c.optional then c.form.type.nullable else c.form.type

def affinity (c : ColumnType) : Affinity := c.form.affinity

def ofType? (t : TypeExpr) : Option ColumnType := all.find? (·.type = t)

/-- Writes the code that binds `value` at `index`. -/
def writeBind (c : ColumnType) (stmt index value : String) : Emit Unit :=
  if c.optional then do
    let present ← Emit.fresh "value"
    Emit.enter ("match &" ++ value)
    Emit.line ("None => " ++ stmt ++ ".bind_null(" ++ index ++ "),")
    Emit.line ("Some(" ++ present ++ ") => " ++ c.form.bindExpr true stmt index present ++ ",")
    Emit.leave
  else
    Emit.statement (c.form.bindExpr false stmt index value)

/-- Writes the code that assigns the value at `index` to `out`. -/
def writeRead (c : ColumnType) (out cursor index : String) : Emit Unit := do
  let read := c.form.readExpr cursor index
  if c.optional then
    Emit.enter ("if " ++ cursor ++ ".is_null(" ++ index ++ ")")
    Emit.statement (out ++ " = None")
    Emit.next "else"
    Emit.statement (out ++ " = Some(" ++ read ++ ")")
    Emit.leave
  else
    Emit.statement (out ++ " = " ++ read)

end ColumnType

/-- Binds values of a type as the values of a column, converted first if there is a converter. -/
structure ValueBinder where
  type : TypeExpr
  column : ColumnType
  converter : Option Converter := none
deriving DecidableEq, Repr

def ValueBinder.write (b : ValueBinder) (stmt index value : String) : Emit Unit :=
  match b.converter with
  | none => b.column.writeBind stmt index value
  | some c => do
    let stored ← Emit.fresh "tmp"
    Emit.statement ("let " ++ stored ++ ": " ++ c.target.display)
    c.write value stored
    b.column.writeBind stmt index stored

/-- Reads the values of a column as values of a type, converted if there is a converter. -/
structure ValueReader where
  type : TypeExpr
  column : ColumnType
  converter : Option Converter := none
deriving DecidableEq, Repr

namespace ValueReader

def affinity (r : ValueReader) : Affinity := r.column.affinity

def write (r : ValueReader) (out cursor index : String) : Emit Unit :=
  match r.converter with
  | none => r.column.writeRead out cursor index
  | some c => do
    let stored ← Emit.fresh "tmp"
    Emit.statement ("let " ++ stored ++ ": " ++ c.source.display)
    r.column.writeRead stored cursor index
    c.write stored out

end ValueReader

/-- Both directions between a type and the column that holds it. -/
structure ColumnAdapter where
  type : TypeExpr
  column : ColumnType
  intoColumn : Option Converter := none
  fromColumn : Option Converter := none
deriving DecidableEq, Repr

namespace ColumnAdapter

def affinity (a : ColumnAdapter) : Affinity := a.column.affinity

def binder (a : ColumnAdapter) : ValueBinder := ⟨a.type, a.column, a.intoColumn⟩

def reader (a : ColumnAdapter) : ValueReader := ⟨a.type, a.column, a.fromColumn⟩

end ColumnAdapter

end DataAccess.Convert
