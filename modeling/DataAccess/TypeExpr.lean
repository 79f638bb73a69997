import DataAccess.Text.Words

/-!
Declared types: a path with type arguments, such as `Vec<User>`, `rx2::Flowable<Vec<User>>` or `()`.
Two types are the same when their paths and arguments are.
-/

set_option autoImplicit false

namespace DataAccess

inductive TypeExpr where
  | mk (name : String) (args : List TypeExpr)
deriving Repr, Inhabited

namespace TypeExpr

mutual

def decEq : (a b : TypeExpr) → Decidable (a = b)
  | .mk n as, .mk m bs =>
    match String.decEq n m, decEqList as bs with
    | isTrue hn, isTrue has => isTrue (by rw [hn, has])
    | isFalse hn, _ => isFalse fun h => hn (by injection h)
    | _, isFalse has => isFalse fun h => has (by injection h)

def decEqList : (as bs : List TypeExpr) → Decidable (as = bs)
  | [], [] => isTrue rfl
  | [], _ :: _ => isFalse nofun
  | _ :: _, [] => isFalse nofun
  | a :: as, b :: bs =>
    match decEq a b, decEqList as bs with
    | isTrue h, isTrue hs => isTrue (by rw [h, hs])
    | isFalse h, _ => isFalse fun e => h (by injection e)
    | _, isFalse hs => isFalse fun e => hs (by injection e)

end

instance : DecidableEq TypeExpr := decEq

/-- The full path without type arguments. -/
def name : TypeExpr → String
  | .mk n _ => n

def args : TypeExpr → List TypeExpr
  | .mk _ as => as

@[simp] theorem name_mk (n : String) (as : List TypeExpr) : (mk n as).name = n := rfl

@[simp] theorem args_mk (n : String) (as : List TypeExpr) : (mk n as).args = as := rfl

def simple (name : String) : TypeExpr := .mk name []

def unit : TypeExpr := simple "()"

def string : TypeExpr := simple "String"

def bytes : TypeExpr := simple "Bytes"

def optionOf (t : TypeExpr) : TypeExpr := .mk "Option" [t]

def vecOf (t : TypeExpr) : TypeExpr := .mk "Vec" [t]

mutual

/-- The canonical text of a type. -/
def chars : TypeExpr → List Char
  | .mk n [] => n.toList
  | .mk n (a :: as) => n.toList ++ '<' :: (a.chars ++ moreChars as ++ ['>'])

/-- The arguments after the first, each with its separator. -/
def moreChars : List TypeExpr → List Char
  | [] => []
  | a :: as => ',' :: ' ' :: (a.chars ++ moreChars as)

end

def display (t : TypeExpr) : String := String.ofList t.chars

/-- The characters up to the first pair of colons. -/
def untilColons : List Char → List Char
  | ':' :: ':' :: _ => []
  | c :: rest => c :: untilColons rest
  | [] => []

/-- The last segment of the path. -/
def simpleName (t : TypeExpr) : String :=
  String.ofList (untilColons t.name.toList.reverse).reverse

/-- The only type argument, when there is exactly one. -/
def singleArg? (t : TypeExpr) : Option TypeExpr :=
  match t.args with
  | [only] => some only
  | _ => none

def isUnit (t : TypeExpr) : Bool := t.name = "()"

def isOption (t : TypeExpr) : Bool := t.name = "Option" && t.args.length = 1

def isVec (t : TypeExpr) : Bool := t.name = "Vec" && t.args.length = 1

/-- A vector of bytes is a blob and not a collection. -/
def isByteVec (t : TypeExpr) : Bool := t.isVec && (t.args.head?.map name) = some "u8"

/-- A vector of anything but bytes. -/
def isCollection (t : TypeExpr) : Bool := t.isVec && !t.isByteVec

def optionInner? (t : TypeExpr) : Option TypeExpr := if t.isOption then t.args.head? else none

/-- The type itself when it is optional, otherwise its optional form. -/
def nullable (t : TypeExpr) : TypeExpr := if t.isOption then t else optionOf t

/-- The type without its outermost optional layer. -/
def nonNull (t : TypeExpr) : TypeExpr := t.optionInner?.getD t

/-- The built-in scalar types. -/
inductive Primitive where
  | bool | i8 | i16 | i32 | i64 | f32 | f64 | char
deriving DecidableEq, Repr

namespace Primitive

def all : List Primitive := [bool, i8, i16, i32, i64, f32, f64, char]

def name : Primitive → String
  | bool => "bool"
  | i8 => "i8"
  | i16 => "i16"
  | i32 => "i32"
  | i64 => "i64"
  | f32 => "f32"
  | f64 => "f64"
  | char => "char"

def ofName? (n : String) : Option Primitive := all.find? (·.name = n)

def type (p : Primitive) : TypeExpr := simple p.name

/-- The literal of the value that stands for nothing found. -/
def zero : Primitive → String
  | bool => "false"
  | f32 | f64 => "0.0"
  | char => "'\\0'"
  | i8 | i16 | i32 | i64 => "0"

end Primitive

def primitive? (t : TypeExpr) : Option Primitive :=
  if t.args.isEmpty then Primitive.ofName? t.name else none

def isPrimitive (t : TypeExpr) : Bool := t.primitive?.isSome

/-- The literal of the empty value, for the types that have one. -/
def emptyLiteral? (t : TypeExpr) : Option String :=
  if t.isOption then some "None"
  else if t.isUnit then some "()"
  else t.primitive?.map Primitive.zero

/-- Letters and digits in lower case with single underscores between their runs, written backwards
onto `out`. -/
def fragmentOnto (out : List Char) : List Char → List Char
  | [] => out
  | c :: rest =>
    if c.isAlphanum then fragmentOnto (c.toLower :: out) rest
    else if out.isEmpty || out.head? = some '_' then fragmentOnto out rest
    else fragmentOnto ('_' :: out) rest

/-- A fragment of an identifier that names the type. -/
def identFragment (t : TypeExpr) : String :=
  String.ofList ((fragmentOnto [] t.chars).dropWhile (· = '_')).reverse

/-- Whether the path is `path` or ends it at a segment boundary. -/
def matchesPath (t : TypeExpr) (path : String) : Bool :=
  t.name = path || (':' :: ':' :: t.name.toList).isSuffixOf path.toList

end TypeExpr

end DataAccess
