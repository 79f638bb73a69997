import DataAccess.Convert.Argument
import DataAccess.Proofs.Code.Draft

/-!
The code that binds an argument as a program: what is written for columns, converters, values and
collections is the text of a draft.
-/

set_option autoImplicit false

namespace DataAccess.Convert

open Code Schema

/-- The calls that store the values of a form. -/
def ColumnForm.kind : ColumnForm → CellKind
  | scalar p => if Affinity.ofPrimitive p = .real then .double else .long
  | string => .string
  | byteVec | buffer => .blob

theorem ColumnForm.bindExpr_eq (form : ColumnForm) (borrowed : Bool) (stmt : String)
    (index : Amount) (x : Var) :
    form.bindExpr borrowed stmt index.text x.name =
      (Instr.bind stmt index form.kind borrowed x).text := by
  cases form with
  | scalar p =>
    simp only [bindExpr, kind]
    split <;> rfl
  | string | byteVec | buffer => rfl

def ColumnType.draft (c : ColumnType) (stmt : String) (index : Amount) (x : Var) : Draft Unit :=
  if c.optional then do
    let present ← Draft.fresh "value"
    Draft.select x (.bindNull stmt index) present
      (.bind stmt index c.form.kind true (.temporary present))
  else Draft.step (.bind stmt index c.form.kind false x)

theorem ColumnType.realize_draft (c : ColumnType) (stmt : String) (index : Amount) (x : Var) :
    (c.draft stmt index x).realize = c.writeBind stmt index.text x.name := by
  unfold draft writeBind
  split
  · have hbind (present : String) :
        (Instr.bind stmt index c.form.kind true (.temporary present)).text =
          c.form.bindExpr true stmt index.text present :=
      (c.form.bindExpr_eq true stmt index (.temporary present)).symm
    have hclose : ")," = ")" ++ "," := rfl
    have hnull : "None => " ++ (Instr.bindNull stmt index).text ++ "," =
        "None => " ++ stmt ++ ".bind_null(" ++ index.text ++ ")," := by
      simp only [Instr.text, hclose, String.append_assoc]
    simp only [Draft.realize_bind, Draft.realize_fresh, Draft.realize_select, hbind, hnull]
  · rw [Draft.realize_step, ← ColumnForm.bindExpr_eq]

theorem ColumnType.extends_draft (c : ColumnType) (stmt : String) (index : Amount) (x : Var) :
    (c.draft stmt index x).Extends := by
  unfold draft
  split
  · exact (Draft.extends_fresh _).bind fun _ => Draft.extends_select _ _ _ _
  · exact Draft.extends_step _

namespace Converter

def draftCallee (m : CustomConverter) : Draft String := do
  let object ← Draft.receiver
  match m.kind with
  | .static => return m.className ++ "::" ++ m.methodName
  | .constructed =>
    let field ← Draft.onMembers (ClassMembers.field (instanceField m.className))
    return object ++ "." ++ field ++ "." ++ m.methodName
  | .provided =>
    let getter ← Draft.onMembers (ClassMembers.method (providedGetter m.className))
    return object ++ "." ++ getter ++ "()." ++ m.methodName

theorem realize_draftCallee (m : CustomConverter) : (draftCallee m).realize = callee m := by
  unfold draftCallee callee
  cases m.kind <;> simp [Emit.sharedField, Emit.sharedMethod]

theorem extends_draftCallee (m : CustomConverter) : (draftCallee m).Extends := by
  refine Draft.extends_receiver.bind fun object => ?_
  cases m.kind with
  | «static» => exact Draft.extends_pure _
  | constructed => exact (Draft.extends_onMembers _).bind fun _ => Draft.extends_pure _
  | provided => exact (Draft.extends_onMembers _).bind fun _ => Draft.extends_pure _

/-- Calling a method takes no code of its own. -/
theorem program_draftCallee (m : CustomConverter) (t : Naming) :
    (draftCallee m t).program = .done := by
  unfold draftCallee
  cases m.kind <;> rfl

def draft (c : Converter) (x : Var) (output : String) : Draft Unit :=
  match c with
  | identity _ => Draft.step (.assign output (.convert .clone x))
  | boolToInt => Draft.step (.assign output (.convert .toInt x))
  | intToBool => Draft.step (.assign output (.convert .toBool x))
  | optionBoolToInt => Draft.step (.assign output (.convert .optionToInt x))
  | optionIntToBool => Draft.step (.assign output (.convert .optionToBool x))
  | custom m => do
    let callee ← draftCallee m
    Draft.step (.assign output (.convert (.call m callee) x))
  | nullSafe inner => do
    let value ← Draft.fresh "value"
    let converted ← Draft.fresh "converted"
    Draft.inspect x (.assign output .absent) value do
      Draft.step (.declare converted inner.target.display)
      inner.draft (.temporary value) converted
      Draft.step (.assign output (.convert .wrap (.temporary converted)))
  | chain first second => do
    let middle ← Draft.fresh "tmp"
    Draft.step (.declare middle first.target.display)
    first.draft x middle
    second.draft (.temporary middle) output

theorem realize_draft (c : Converter) (x : Var) (output : String) :
    (c.draft x output).realize = c.write x.name output := by
  have hif : " = if " = " = " ++ "if " := rfl
  have hsome : " = Some(" = " = " ++ "Some(" := rfl
  have hnone : " = None," = " = " ++ "None" ++ "," := rfl
  induction c generalizing x output with
  | identity | boolToInt | intToBool | optionBoolToInt | optionIntToBool =>
    simp only [draft, write, Draft.realize_step, Instr.text, Expr.text, Conversion.text, hif,
      String.append_assoc]
  | custom m =>
    simp only [draft, write, Draft.realize_bind, Draft.realize_step, realize_draftCallee,
      Instr.text, Expr.text, Conversion.text, String.append_assoc]
  | nullSafe inner ih =>
    simp only [draft, write, Draft.realize_bind, Draft.realize_fresh, Draft.realize_inspect,
      Draft.realize_step, ih, Instr.text, Expr.text, Conversion.text, Var.name, hsome, hnone,
      String.append_assoc]
  | chain first second hfirst hsecond =>
    simp only [draft, write, Draft.realize_bind, Draft.realize_fresh, Draft.realize_step, hfirst,
      hsecond, Instr.text, Var.name, String.append_assoc]

theorem extends_draft (c : Converter) (x : Var) (output : String) :
    (c.draft x output).Extends := by
  induction c generalizing x output with
  | identity | boolToInt | intToBool | optionBoolToInt | optionIntToBool =>
    exact Draft.extends_step _
  | custom m => exact (extends_draftCallee m).bind fun _ => Draft.extends_step _
  | nullSafe inner ih =>
    refine (Draft.extends_fresh _).bind fun value => (Draft.extends_fresh _).bind fun converted => ?_
    refine Draft.Extends.inspect ?_ _ _ _
    refine (Draft.extends_step _).bind fun _ => (ih _ _).bind fun _ => Draft.extends_step _
  | chain first second hfirst hsecond =>
    refine (Draft.extends_fresh _).bind fun middle => ?_
    refine (Draft.extends_step _).bind fun _ => (hfirst _ _).bind fun _ => hsecond _ _

end Converter

def ValueBinder.draft (b : ValueBinder) (stmt : String) (index : Amount) (x : Var) : Draft Unit :=
  match b.converter with
  | none => b.column.draft stmt index x
  | some c => do
    let stored ← Draft.fresh "tmp"
    Draft.step (.declare stored c.target.display)
    c.draft x stored
    b.column.draft stmt index (.temporary stored)

theorem ValueBinder.realize_draft (b : ValueBinder) (stmt : String) (index : Amount) (x : Var) :
    (b.draft stmt index x).realize = b.write stmt index.text x.name := by
  unfold draft write
  cases b.converter with
  | none => exact b.column.realize_draft stmt index x
  | some c =>
    simp only [Draft.realize_bind, Draft.realize_fresh, Draft.realize_step,
      Converter.realize_draft, ColumnType.realize_draft, Instr.text, Var.name]

theorem ValueBinder.extends_draft (b : ValueBinder) (stmt : String) (index : Amount) (x : Var) :
    (b.draft stmt index x).Extends := by
  unfold draft
  cases b.converter with
  | none => exact b.column.extends_draft stmt index x
  | some c =>
    refine (Draft.extends_fresh _).bind fun stored => (Draft.extends_step _).bind fun _ => ?_
    exact (c.extends_draft _ _).bind fun _ => b.column.extends_draft _ _ _

namespace Argument

def draftRunning (a : Argument) (stmt counter : String) (x : Var) : Draft Unit :=
  match a with
  | value b => do
    b.draft stmt (.held counter) x
    Draft.step (.advance counter)
  | collection b => do
    let item ← Draft.fresh "item"
    Draft.each item x do
      b.draft stmt (.held counter) (.temporary item)
      Draft.step (.advance counter)

theorem realize_draftRunning (a : Argument) (stmt counter : String) (x : Var) :
    (a.draftRunning stmt counter x).realize = a.writeRunning stmt counter x.name := by
  cases a <;>
    simp [draftRunning, writeRunning, ValueBinder.realize_draft, Instr.text, Amount.text, Var.name]

def draftAt (a : Argument) (stmt : String) (index : Nat) (x : Var) : Draft Unit :=
  match a with
  | value b => b.draft stmt (.fixed index) x
  | collection _ => do
    let counter ← Draft.fresh "arg_index"
    Draft.step (.define "let mut " counter ": usize" (.sum [.fixed index]))
    a.draftRunning stmt counter x

theorem realize_draftAt (a : Argument) (stmt : String) (index : Nat) (x : Var) :
    (a.draftAt stmt index x).realize = a.writeAt stmt index x.name := by
  cases a with
  | value b => exact b.realize_draft stmt (.fixed index) x
  | collection b =>
    have hstart : ": usize = " = ": usize" ++ " = " := rfl
    simp [draftAt, writeAt, realize_draftRunning, Instr.text, Expr.text, Amount.text, hstart,
      String.append_assoc]

theorem extends_draftRunning (a : Argument) (stmt counter : String) (x : Var) :
    (a.draftRunning stmt counter x).Extends := by
  cases a with
  | value b => exact (b.extends_draft _ _ _).bind fun _ => Draft.extends_step _
  | collection b =>
    refine (Draft.extends_fresh _).bind fun item => Draft.Extends.each ?_ _ _
    exact (b.extends_draft _ _ _).bind fun _ => Draft.extends_step _

theorem extends_draftAt (a : Argument) (stmt : String) (index : Nat) (x : Var) :
    (a.draftAt stmt index x).Extends := by
  cases a with
  | value b => exact b.extends_draft _ _ _
  | collection b =>
    refine (Draft.extends_fresh _).bind fun counter => (Draft.extends_step _).bind fun _ => ?_
    exact extends_draftRunning _ _ _ _

end Argument

end DataAccess.Convert
