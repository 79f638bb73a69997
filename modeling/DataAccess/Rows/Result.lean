import DataAccess.Rows.Row

/-!
How the whole result of a query becomes one value.
-/

set_option autoImplicit false

namespace DataAccess.Rows

open Code Schema DataAccess.Convert

inductive ResultForm where
  /-- The first row, or else a literal, or else an error. -/
  | single (empty : Option String)
  | list
  | optional
  /-- An optional value of the runtime library's own type. -/
  | frameworkOptional
deriving DecidableEq, Repr

/-- What an empty result becomes. -/
inductive EmptyPolicy where
  | emptyCollection
  | absent
  | literal (text : String)
  | error
deriving DecidableEq, Repr

namespace ResultForm

def name : ResultForm → String
  | single _ => "single"
  | list => "list"
  | optional => "optional"
  | frameworkOptional => "framework optional"

def emptyPolicy : ResultForm → EmptyPolicy
  | single (some text) => .literal text
  | single none => .error
  | list => .emptyCollection
  | optional | frameworkOptional => .absent

/-- The type of a result with rows of the given type. -/
def typeOf (row : TypeExpr) : ResultForm → TypeExpr
  | single _ => row
  | list => .vecOf row
  | optional => .optionOf row
  | frameworkOptional => .mk RuntimeNames.optional [row]

end ResultForm

structure Result where
  form : ResultForm
  row : Row
deriving Repr

namespace Result

def type (r : Result) : TypeExpr := r.form.typeOf r.row.type

def tables (r : Result) : NameSet := r.row.tables

def emptyPolicy (r : Result) : EmptyPolicy := r.form.emptyPolicy

/-- The same result, but with an error in place of a literal. -/
def withEmptyError (r : Result) : Result :=
  match r.form with
  | .single _ => { r with form := .single none }
  | _ => r

/-- Writes the reading of a list. -/
def writeList (row : Row) (out cursor : String) : Emit Unit := do
  Emit.statement ("let mut " ++ out ++ ": Vec<" ++ row.type.display ++ "> = Vec::with_capacity(" ++
    cursor ++ ".count())")
  let state ← row.writePrologue cursor
  let item ← Emit.fresh "item"
  Emit.enter ("while " ++ cursor ++ ".move_to_next()")
  Emit.statement ("let " ++ item ++ ": " ++ row.type.display)
  row.write item cursor state
  Emit.statement (out ++ ".push(" ++ item ++ ")")
  Emit.leave

/-- Writes the reading of the first row. -/
def writeSingle (row : Row) (empty : Option String) (out cursor : String) : Emit Unit := do
  Emit.statement ("let " ++ out ++ ": " ++ row.type.display)
  let state ← row.writePrologue cursor
  Emit.enter ("if " ++ cursor ++ ".move_to_first()")
  row.write out cursor state
  Emit.next "else"
  match empty with
  | some text => Emit.statement (out ++ " = " ++ text)
  | none => Emit.statement "return Err(Error::EmptyResultSet)"
  Emit.leave

/-- Writes the reading of the first row as an optional value of the given type. -/
def writeOptional (row : Row) (type present absent : String) (out cursor : String) :
    Emit Unit := do
  Emit.statement ("let " ++ out ++ ": " ++ type)
  let state ← row.writePrologue cursor
  let value ← Emit.fresh "value"
  Emit.enter ("if " ++ cursor ++ ".move_to_first()")
  Emit.statement ("let " ++ value ++ ": " ++ row.type.display)
  row.write value cursor state
  Emit.statement (out ++ " = " ++ present ++ "(" ++ value ++ ")")
  Emit.next "else"
  Emit.statement (out ++ " = " ++ absent)
  Emit.leave

/-- Writes the reading of a result into the new variable `out`. -/
def write (r : Result) (out cursor : String) : Emit Unit :=
  match r.form with
  | .list => writeList r.row out cursor
  | .single empty => writeSingle r.row empty out cursor
  | .optional => writeOptional r.row r.type.display "Some" "None" out cursor
  | .frameworkOptional =>
    writeOptional r.row r.type.display (RuntimeNames.optional ++ "::of")
      (RuntimeNames.optional ++ "::empty()") out cursor

/-- The form of results of type `t`, and the type of their rows. -/
def formOf? (decls : Declarations) (t : TypeExpr) : Option (ResultForm × TypeExpr) :=
  if t.isUnit then none
  else if t.isCollection then t.singleArg?.map (ResultForm.list, ·)
  else if RuntimeNames.isOptional t then t.singleArg?.map (ResultForm.frameworkOptional, ·)
  else
    match t.optionInner?.filter decls.isRecordType with
    | some inner => some (.optional, inner)
    | none => some (.single t.emptyLiteral?, t)

/-- How the result of a query is read as a value of type `t`. -/
def resolve (store : Store) (t : TypeExpr) (query : Sql.Query) : Attempt Result := do
  let (form, rowType) ← Attempt.ofOption (formOf? store.decls t)
  return ⟨form, ← Row.resolve store rowType query⟩

end Result

end DataAccess.Rows
