import DataAccess.Code.Emit
import DataAccess.Schema.Dao

/-!
Converters between types, and the code that applies them. A converter is a single step, the lift of
a step to optional values, or a chain of steps.
-/

set_option autoImplicit false

namespace DataAccess.Convert

open Code Schema

inductive Converter where
  | identity (type : TypeExpr)
  | boolToInt
  | intToBool
  | optionBoolToInt
  | optionIntToBool
  | custom (method : CustomConverter)
  /-- Converts what is inside an optional value. -/
  | nullSafe (inner : Converter)
  | chain (first second : Converter)
deriving DecidableEq, Repr

namespace Converter

def boolType : TypeExpr := TypeExpr.Primitive.bool.type

def intType : TypeExpr := TypeExpr.Primitive.i32.type

def source : Converter → TypeExpr
  | identity t => t
  | boolToInt => boolType
  | intToBool => intType
  | optionBoolToInt => boolType.nullable
  | optionIntToBool => intType.nullable
  | custom m => m.source
  | nullSafe inner => inner.source.nullable
  | chain first _ => first.source

def target : Converter → TypeExpr
  | identity t => t
  | boolToInt => intType
  | intToBool => boolType
  | optionBoolToInt => intType.nullable
  | optionIntToBool => boolType.nullable
  | custom m => m.target
  | nullSafe inner => inner.target.nullable
  | chain _ second => second.target

/-- The number of steps. -/
def hops : Converter → Nat
  | identity _ => 0
  | nullSafe inner => inner.hops
  | chain first second => first.hops + second.hops
  | _ => 1

def describe : Converter → String
  | custom m =>
    m.qualifiedName ++ " (" ++ m.source.display ++ " -> " ++ m.target.display ++ ")"
  | nullSafe inner => inner.describe ++ " (null safe)"
  | chain first second => first.describe ++ " then " ++ second.describe
  | c => c.source.display ++ " -> " ++ c.target.display

/-- The lift of a converter between values that are not optional. -/
def lift? (c : Converter) : Option Converter :=
  if c.source.isOption || c.target.isOption then none else some (nullSafe c)

/-- The field that holds an instance of a converter class. -/
def instanceField (className : String) : ClassMembers.FieldSpec where
  base := Text.snakeCase className
  key := "converter_instance:" ++ className
  prepare := return ("Arc<" ++ className ++ ">", "Arc::new(" ++ className ++ "::default())")

/-- The field that keeps a converter once the database has provided it. -/
def providedCell (className : String) : ClassMembers.FieldSpec where
  base := Text.snakeCase className ++ "_cell"
  key := "provided_converter_cell:" ++ className
  prepare :=
    return ("std::sync::OnceLock<Arc<" ++ className ++ ">>", "std::sync::OnceLock::new()")

/-- The method that returns a converter provided by the database. -/
def providedGetter (className : String) : ClassMembers.MethodSpec where
  base := Text.snakeCase className
  key := "provided_converter:" ++ className
  prepare name := do
    ClassMembers.require className
    let cell ← ClassMembers.field (providedCell className)
    let call :=
      "self." ++ cell ++ ".get_or_init(|| self.db.type_converter::<" ++ className ++ ">())"
    return { name, signature := "(&self) -> &Arc<" ++ className ++ ">", body := Block.line call {} }

/-- The expression for a converter method. -/
def callee (m : CustomConverter) : Emit String := do
  let object ← Emit.receiver
  match m.kind with
  | .static => return m.className ++ "::" ++ m.methodName
  | .constructed =>
    return object ++ "." ++ (← Emit.sharedField (instanceField m.className)) ++ "." ++ m.methodName
  | .provided =>
    return object ++ "." ++ (← Emit.sharedMethod (providedGetter m.className)) ++ "()." ++
      m.methodName

/-- Writes the code that assigns the converted value of `input` to `output`. -/
def write (c : Converter) (input output : String) : Emit Unit :=
  match c with
  | identity _ => Emit.statement (output ++ " = " ++ input ++ ".clone()")
  | boolToInt => Emit.statement (output ++ " = if " ++ input ++ " \x7b 1 \x7d else \x7b 0 \x7d")
  | intToBool => Emit.statement (output ++ " = " ++ input ++ " != 0")
  | optionBoolToInt =>
    Emit.statement (output ++ " = " ++ input ++ ".map(|v| if v \x7b 1 \x7d else \x7b 0 \x7d)")
  | optionIntToBool => Emit.statement (output ++ " = " ++ input ++ ".map(|v| v != 0)")
  | custom m => do
    let method ← callee m
    Emit.statement (output ++ " = " ++ method ++ "(" ++ input ++ ".clone())")
  | nullSafe inner => do
    let value ← Emit.fresh "value"
    let converted ← Emit.fresh "converted"
    let body ← Emit.fork do
      Emit.statement ("let " ++ converted ++ ": " ++ inner.target.display)
      inner.write value converted
      Emit.statement (output ++ " = Some(" ++ converted ++ ")")
    Emit.enter ("match &" ++ input)
    Emit.line ("None => " ++ output ++ " = None,")
    Emit.enter ("Some(" ++ value ++ ") =>")
    Emit.splice body
    Emit.leave
    Emit.leave
  | chain first second => do
    let middle ← Emit.fresh "tmp"
    Emit.statement ("let " ++ middle ++ ": " ++ first.target.display)
    first.write input middle
    second.write middle output

end Converter

end DataAccess.Convert
