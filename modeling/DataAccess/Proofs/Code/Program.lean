import DataAccess.Code.Block
import DataAccess.Schema.Dao
import DataAccess.Text.Literal

/-!
The generated code that prepares a statement, as programs with a text and a meaning. A program finds
what a name stands for as the compiled code does: the innermost local variable of that name, or else
the parameter.
-/

set_option autoImplicit false

namespace DataAccess.Code

open Schema

/-- A variable, with what it is meant to be. -/
inductive Var where
  | parameter (name : String)
  | temporary (name : String)

def Var.name : Var → String
  | parameter name | temporary name => name

@[simp] theorem Var.name_parameter (name : String) : (parameter name).name = name := rfl

@[simp] theorem Var.name_temporary (name : String) : (temporary name).name = name := rfl

/-- A number, or the local variable that holds it. -/
inductive Amount where
  | fixed (n : Nat)
  | held (name : String)

def Amount.text : Amount → String
  | fixed n => toString n
  | held name => name

/-- The calls that bind a value. -/
inductive CellKind where
  | long
  | double
  | string
  | blob

namespace CellKind

def method : CellKind → String
  | long => "bind_long"
  | double => "bind_double"
  | string => "bind_string"
  | blob => "bind_blob"

/-- What is passed for a variable, which may be a reference. -/
def passed (borrowed : Bool) (x : String) : CellKind → String
  | long => (if borrowed then "*" ++ x else x) ++ " as i64"
  | double => (if borrowed then "*" ++ x else x) ++ " as f64"
  | string => if borrowed then x else "&" ++ x
  | blob => x ++ ".as_ref()"

end CellKind

/-- A step from one value to another. -/
inductive Conversion where
  | clone
  | toInt
  | toBool
  | optionToInt
  | optionToBool
  /-- A call of a converter method. -/
  | call (method : CustomConverter) (callee : String)
  | wrap

def Conversion.text (x : String) : Conversion → String
  | clone => x ++ ".clone()"
  | toInt => "if " ++ x ++ " \x7b 1 \x7d else \x7b 0 \x7d"
  | toBool => x ++ " != 0"
  | optionToInt => x ++ ".map(|v| if v \x7b 1 \x7d else \x7b 0 \x7d)"
  | optionToBool => x ++ ".map(|v| v != 0)"
  | call _ callee => callee ++ "(" ++ x ++ ".clone())"
  | wrap => "Some(" ++ x ++ ")"

inductive Expr where
  | literal (text : String)
  | emptyText
  /-- The text that a variable holds. -/
  | take (builder : String)
  | length (x : Var)
  | sum (terms : List Amount)
  | acquire (borrowed : Bool) (sql : String) (count : Amount)
  | compile (object : String) (borrowed : Bool) (sql : String)
  /-- The statement that a field of the class shares. -/
  | shared (object field : String)
  | convert (step : Conversion) (x : Var)
  | absent

namespace Expr

def acquireText (sql count : String) : String := "SqlQuery::acquire(" ++ sql ++ ", " ++ count ++ ")"

def compileText (object sql : String) : String := object ++ ".db.compile_statement(" ++ sql ++ ")"

/-- How a text is passed. -/
def passed (borrowed : Bool) (sql : String) : String := if borrowed then "&" ++ sql else sql

def text : Expr → String
  | literal text => Text.literal text
  | emptyText => "String::new()"
  | take builder => builder
  | length x => x.name ++ ".len()"
  | sum terms => " + ".intercalate (terms.map Amount.text)
  | acquire borrowed sql count => acquireText (passed borrowed sql) count.text
  | compile object borrowed sql => compileText object (passed borrowed sql)
  | shared object field => object ++ "." ++ field ++ ".acquire()"
  | convert step x => step.text x.name
  | absent => "None"

end Expr

inductive Instr where
  | define (keyword name type : String) (value : Expr)
  | declare (name type : String)
  | assign (name : String) (value : Expr)
  | pushText (builder text : String)
  | pushPlaceholders (builder size : String)
  | bind (statement : String) (index : Amount) (kind : CellKind) (borrowed : Bool) (x : Var)
  | bindNull (statement : String) (index : Amount)
  | advance (counter : String)

namespace Instr

def placeholdersText (builder size : String) : String :=
  "string_util::append_placeholders(&mut " ++ builder ++ ", " ++ size ++ ")"

def text : Instr → String
  | define keyword name type value => keyword ++ name ++ type ++ " = " ++ value.text
  | declare name type => "let " ++ name ++ ": " ++ type
  | assign name value => name ++ " = " ++ value.text
  | pushText builder text => builder ++ ".push_str(" ++ Text.literal text ++ ")"
  | pushPlaceholders builder size => placeholdersText builder size
  | bind statement index kind borrowed x =>
    let passed := kind.passed borrowed x.name
    statement ++ "." ++ kind.method ++ "(" ++ index.text ++ ", " ++ passed ++ ")"
  | bindNull statement index => statement ++ ".bind_null(" ++ index.text ++ ")"
  | advance counter => counter ++ " += 1"

end Instr

/-- A sequence of instructions and of control flows over parameters and local variables. -/
inductive Program where
  | done
  | step (i : Instr) (rest : Program)
  | each (item : String) (x : Var) (body rest : Program)
  /-- A case distinction on an optional value, with an instruction for each case. -/
  | select (x : Var) (absent : Instr) (present : String) (found : Instr) (rest : Program)
  /-- A case distinction on an optional value, with a block for what is present. -/
  | inspect (x : Var) (absent : Instr) (present : String) (body rest : Program)

namespace Program

def append : Program → Program → Program
  | done, q => q
  | step i rest, q => step i (rest.append q)
  | each item x body rest, q => each item x body (rest.append q)
  | select x absent present found rest, q => select x absent present found (rest.append q)
  | inspect x absent present body rest, q => inspect x absent present body (rest.append q)

@[simp] theorem append_done (p : Program) : p.append done = p := by
  induction p with
  | done => rfl
  | step i rest ih => simp [append, ih]
  | each item x body rest _ ih => simp [append, ih]
  | select x absent present found rest ih => simp [append, ih]
  | inspect x absent present body rest _ ih => simp [append, ih]

/-- The lines of a program at a depth. -/
def lines (depth : Nat) : Program → List (Nat × String)
  | done => []
  | step i rest => (depth, i.text ++ ";") :: rest.lines depth
  | each item x body rest =>
    (depth, "for " ++ item ++ " in " ++ x.name ++ ".iter().cloned()" ++ " \x7b") ::
      (body.lines (depth + 1) ++ (depth, "\x7d") :: rest.lines depth)
  | select x absent present found rest =>
    (depth, "match &" ++ x.name ++ " \x7b") :: (depth + 1, "None => " ++ absent.text ++ ",") ::
      (depth + 1, "Some(" ++ present ++ ") => " ++ found.text ++ ",") ::
      (depth, "\x7d") :: rest.lines depth
  | inspect x absent present body rest =>
    (depth, "match &" ++ x.name ++ " \x7b") :: (depth + 1, "None => " ++ absent.text ++ ",") ::
      (depth + 1, "Some(" ++ present ++ ") =>" ++ " \x7b") ::
      (body.lines (depth + 2) ++ (depth + 1, "\x7d") :: (depth, "\x7d") :: rest.lines depth)

theorem lines_append (depth : Nat) (p q : Program) :
    (p.append q).lines depth = p.lines depth ++ q.lines depth := by
  induction p with
  | done => rfl
  | step i rest ih => simp [append, lines, ih]
  | each item x body rest _ ih => simp [append, lines, ih]
  | select x absent present found rest ih => simp [append, lines, ih]
  | inspect x absent present body rest _ ih => simp [append, lines, ih]

theorem lines_add (d depth : Nat) (p : Program) :
    p.lines (d + depth) = (p.lines depth).map fun (n, text) => (d + n, text) := by
  induction p generalizing depth with
  | done => rfl
  | step i rest ih => simp [lines, ih]
  | each item x body rest hbody hrest => simp [lines, hbody, hrest, Nat.add_assoc]
  | select x absent present found rest ih => simp [lines, ih, Nat.add_assoc]
  | inspect x absent present body rest hbody hrest => simp [lines, hbody, hrest, Nat.add_assoc]

end Program

def Block.append (b : Block) (p : Program) : Block :=
  { b with lines := b.lines ++ p.lines b.depth }

/-- What the code relies on: how values behave, and the texts that stand for placeholders. -/
structure Runtime (V : Type) where
  /-- The elements of a collection. -/
  items : V → List V
  /-- The content of an optional value. -/
  content? : V → Option V
  clone : V → V
  wrap : V → V
  absent : V
  intOfBool : V → V
  boolOfInt : V → V
  call : CustomConverter → V → V
  ofText : String → V
  ofNumber : Nat → V
  /-- The text of `n` placeholders. -/
  placeholders : Nat → String

/-- What a placeholder is bound to. -/
inductive Cell (V : Type) where
  | null
  | value (kind : CellKind) (v : V)

/-- Where a statement comes from: a text with a count of arguments, a text, or a field. -/
inductive Source where
  | acquired (sql : String) (count : Nat)
  | compiled (sql : String)
  | shared (field : String)

structure Prepared (V : Type) where
  source : Source
  /-- Cells and indices in the order in which they are bound. -/
  binds : List (Cell V × Nat) := []

/-- What a local variable holds. -/
inductive Datum (V : Type) where
  /-- Nothing so far. -/
  | pending
  | value (v : V)
  | text (t : String)
  | number (n : Nat)
  | statement (s : Prepared V)

/-- The local variables in scope, the innermost first. -/
abbrev Locals (V : Type) := List (String × Datum V)

namespace Locals

variable {V : Type}

def names (ls : Locals V) : List String := ls.map Prod.fst

def text? (ls : Locals V) (name : String) : Option String :=
  match ls.lookup name with
  | some (.text t) => some t
  | _ => none

def number? (ls : Locals V) (name : String) : Option Nat :=
  match ls.lookup name with
  | some (.number n) => some n
  | _ => none

def statement? (ls : Locals V) (name : String) : Option (Prepared V) :=
  match ls.lookup name with
  | some (.statement s) => some s
  | _ => none

/-- The value that a name stands for. -/
def read (rt : Runtime V) (arguments : String → V) (ls : Locals V) (name : String) : Option V :=
  match ls.lookup name with
  | none => some (arguments name)
  | some (.value v) => some v
  | some (.text t) => some (rt.ofText t)
  | some (.number n) => some (rt.ofNumber n)
  | some .pending | some (.statement _) => none

/-- Changes the innermost variable of a name. -/
def assign (name : String) (d : Datum V) : Locals V → Locals V
  | [] => []
  | (n, e) :: ls => if n = name then (n, d) :: ls else (n, e) :: assign name d ls

/-- The variables at the end of a block that are visible behind it. -/
def leave (outer inner : Locals V) : Locals V := inner.drop (inner.length - outer.length)

end Locals

section Meaning

variable {V : Type} (rt : Runtime V) (arguments : String → V)

def Conversion.apply (v : V) : Conversion → V
  | clone => rt.clone v
  | toInt => rt.intOfBool v
  | toBool => rt.boolOfInt v
  | optionToInt => ((rt.content? v).map fun w => rt.wrap (rt.intOfBool w)).getD rt.absent
  | optionToBool => ((rt.content? v).map fun w => rt.wrap (rt.boolOfInt w)).getD rt.absent
  | call method _ => rt.call method (rt.clone v)
  | wrap => rt.wrap v

def Amount.eval (ls : Locals V) : Amount → Option Nat
  | fixed n => some n
  | held name => ls.number? name

/-- The sum of at least one amount. -/
def Amount.total (ls : Locals V) : List Amount → Option Nat
  | [] => none
  | [a] => a.eval ls
  | a :: more => do return (← a.eval ls) + (← total ls more)

def Expr.eval (ls : Locals V) : Expr → Option (Datum V)
  | literal text => some (.text text)
  | emptyText => some (.text "")
  | take builder => (ls.text? builder).map .text
  | length x => (ls.read rt arguments x.name).map fun v => .number (rt.items v).length
  | sum terms => (Amount.total ls terms).map .number
  | acquire _ sql count => do
    return .statement { source := .acquired (← ls.text? sql) (← count.eval ls) }
  | compile _ _ sql => (ls.text? sql).map fun t => .statement { source := .compiled t }
  | shared _ field => some (.statement { source := .shared field })
  | convert step x => (ls.read rt arguments x.name).map fun v => .value (step.apply rt v)
  | absent => some (.value rt.absent)

def Prepared.bind (s : Prepared V) (index : Nat) (cell : Cell V) : Prepared V :=
  { s with binds := s.binds ++ [(cell, index)] }

/-- Binds cells at an index and the ones behind it. -/
def Prepared.bindAll (s : Prepared V) (index : Nat) (cells : List (Cell V)) : Prepared V :=
  { s with binds := s.binds ++ cells.zipIdx index }

theorem Prepared.bindAll_nil (s : Prepared V) (index : Nat) : s.bindAll index [] = s := by
  simp [bindAll]

theorem Prepared.bindAll_append (s : Prepared V) (index : Nat) (cells more : List (Cell V)) :
    s.bindAll index (cells ++ more) =
      (s.bindAll index cells).bindAll (index + cells.length) more := by
  simp [bindAll, List.zipIdx_append, List.append_assoc]

theorem Prepared.bindAll_cons (s : Prepared V) (index : Nat) (c : Cell V) (cells : List (Cell V)) :
    s.bindAll index (c :: cells) = (s.bindAll index [c]).bindAll (index + 1) cells :=
  s.bindAll_append index [c] cells

def Instr.exec (ls : Locals V) : Instr → Option (Locals V)
  | define _ name _ value => (value.eval rt arguments ls).map fun d => (name, d) :: ls
  | declare name _ => some ((name, .pending) :: ls)
  | assign name value => (value.eval rt arguments ls).map fun d => ls.assign name d
  | pushText builder text =>
    (ls.text? builder).map fun t => ls.assign builder (.text (t ++ text))
  | pushPlaceholders builder size => do
    let t ← ls.text? builder
    let n ← ls.number? size
    return ls.assign builder (.text (t ++ rt.placeholders n))
  | bind statement index kind _ x => do
    let s ← ls.statement? statement
    let i ← index.eval ls
    let v ← ls.read rt arguments x.name
    return ls.assign statement (.statement (s.bind i (.value kind v)))
  | bindNull statement index => do
    let s ← ls.statement? statement
    let i ← index.eval ls
    return ls.assign statement (.statement (s.bind i .null))
  | advance counter => (ls.number? counter).map fun n => ls.assign counter (.number (n + 1))

/-- Runs a program. There is no result where the code would not compile. -/
def Program.exec : Program → Locals V → Option (Locals V)
  | done, ls => some ls
  | step i rest, ls => do rest.exec (← i.exec rt arguments ls)
  | each item x body rest, ls => do
    let v ← ls.read rt arguments x.name
    let once (ls : Locals V) (w : V) :=
      (body.exec ((item, .value (rt.clone w)) :: ls)).map ls.leave
    rest.exec (← (rt.items v).foldlM once ls)
  | select x absent present found rest, ls => do
    match rt.content? (← ls.read rt arguments x.name) with
    | none => rest.exec (ls.leave (← absent.exec rt arguments ls))
    | some w => rest.exec (ls.leave (← found.exec rt arguments ((present, .value w) :: ls)))
  | inspect x absent present body rest, ls => do
    match rt.content? (← ls.read rt arguments x.name) with
    | none => rest.exec (ls.leave (← absent.exec rt arguments ls))
    | some w => rest.exec (ls.leave (← body.exec ((present, .value w) :: ls)))

end Meaning

end DataAccess.Code
