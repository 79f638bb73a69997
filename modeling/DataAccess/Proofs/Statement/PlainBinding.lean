import DataAccess.Proofs.Rows.PlainReading
import DataAccess.Statement.EntityWrite

/-!
The code that prepares a query or a write is plain: it puts the text of the statement together, takes
the statement and binds values to it, and does not run it.
-/

set_option autoImplicit false

namespace DataAccess

open Code Emit

variable {names : List String} {object : String} {k : Nat}

namespace Convert

theorem ColumnForm.exists_bindExpr (form : ColumnForm) (borrowed : Bool) (stmt index value : String) :
    ∃ rest, form.bindExpr borrowed stmt index value = stmt ++ (".bind_" ++ rest) := by
  have hcall : ∀ method argument, stmt ++ "." ++ ("bind_" ++ method) ++ "(" ++ index ++ ", " ++
      argument ++ ")" = stmt ++ (".bind_" ++ (method ++ "(" ++ index ++ ", " ++ argument ++ ")")) := by
    intro method argument
    have hdot : ∀ text, "." ++ ("bind_" ++ text) = ".bind_" ++ text := by
      intro text
      rw [← String.append_assoc]
      rfl
    simp only [String.append_assoc, hdot]
  cases form with
  | scalar p =>
    unfold bindExpr
    simp only
    split
    · exact ⟨_, hcall "double" _⟩
    · exact ⟨_, hcall "long" _⟩
  | string => exact ⟨_, hcall "string" _⟩
  | byteVec | buffer => exact ⟨_, hcall "blob" _⟩

theorem ColumnType.only_writeBind (c : ColumnType) {stmt : String} (hstmt : IsStatement stmt)
    (index value : String) :
    EmitsOnly (PlainLine names object) object k k (c.writeBind stmt index value) fun _ => True := by
  unfold writeBind
  split
  · refine (only_fresh _).bind fun present _ => (only_enter ?_).bind fun _ _ => ?_
    · simp only [String.append_assoc]
      exact .keyword (Opens.append (by decide) _)
    refine (only_line ?_).bind fun _ _ => (only_line ?_).bind fun _ _ => ?_
    · simp only [String.append_assoc]
      exact .keyword (Opens.append (by decide) _)
    · simp only [String.append_assoc]
      exact .keyword (Opens.append (by decide) _)
    · exact only_leave (.keyword (by decide))
  · obtain ⟨rest, hrest⟩ := c.form.exists_bindExpr false stmt index value
    refine only_statement ?_
    simp only [hrest, String.append_assoc]
    exact .bind hstmt _

theorem ValueBinder.only_write (hnames : conversionNames ⊆ names) (b : ValueBinder) {stmt : String}
    (hstmt : IsStatement stmt) (index value : String) :
    EmitsOnly (PlainLine names object) object k k (b.write stmt index value) fun _ => True := by
  unfold write
  cases b.converter with
  | none => exact b.column.only_writeBind hstmt index value
  | some c =>
    refine (only_freshOf names "_tmp" (hnames (by decide)) (by decide)).bind fun stored hstored =>
      (only_statement ?_).bind fun _ _ => ?_
    · simp only [String.append_assoc]
      exact .declare (hstored.append _)
    · exact (c.only_write hnames hstored).bind fun _ _ => b.column.only_writeBind hstmt index stored

namespace Argument

variable (a : Argument) {stmt : String}

end Argument

end Convert

namespace Statement

open DataAccess.Convert Delivery

/-- The names of the variables of the code that prepares a statement. -/
def preparationNames : List String :=
  conversionNames ++ ["_sql", "_string_builder", "_input_size", "_arg_count", "_arg_index"]

/-- A line of the code that prepares a statement. -/
abbrev PreparationLine (object : String) : String → Prop := PlainLine preparationNames object

theorem conversionNames_subset_preparation : conversionNames ⊆ preparationNames :=
  List.subset_append_left _ _

/-- A source that is ready for `n` runs: its statements were taken, and what binds an entity is
plain. -/
def IsPrepared (object : String) (n : Nat) : StatementSource → Prop
  | .statement name => n = 1 ∧ IsStatement name
  | .entities statements => n = statements.length ∧ ∀ e ∈ statements,
      IsStatement e.statement ∧ ∀ x ∈ e.bind.lines, PreparationLine object x.2

theorem only_freshStatement {P : String → Prop} {wish : String}
    (hwish : localBase wish ∈ statementNames) :
    EmitsOnly P object k k (fresh wish) IsStatement :=
  (only_fresh wish).imp (fun _ h => h) fun _ hname => ⟨_, hwish, hname⟩

namespace BoundQuery

variable (b : BoundQuery)

end BoundQuery

namespace EntityWrite

variable (w : EntityWrite)

/-- Writes the taking of the statement for a parameter, unless one with an equal text is at hand. -/
def takeStatement (acquired : List (String × String)) (p : EntityParam) :
    Emit (String × List (String × String)) :=
  let sql := p.sql w.kind w.onConflict
  match acquired.lookup sql with
  | some statement => pure (statement, acquired)
  | none => do
    let base := Text.asciiLower w.kind.name ++ "_stmt_of_" ++ Text.snakeCase p.entity
    let field ← Emit.sharedField (preparedField base sql)
    let statement ← Emit.fresh "stmt"
    Emit.statement ("let mut " ++ statement ++ " = " ++ (← Emit.receiver) ++ "." ++ field ++
      ".acquire()")
    pure (statement, (sql, statement) :: acquired)

/-- Writes the code that binds an entity of a parameter to a statement. -/
def bindParam (p : EntityParam) (taken : String × List (String × String)) :
    Emit (EntityStatement × List (String × String)) := do
  let item ← if p.isCollection then some <$> Emit.fresh "item" else pure none
  let bind ← Emit.fork do
    ((p.boundColumns w.kind).zipIdx 1).forM fun (column, index) =>
      column.binder.write taken.1 (toString index) (column.value (item.getD p.name))
  return (⟨taken.1, p.name, item, bind⟩, taken.2)

theorem prepareParam_eq (acquired : List (String × String)) (p : EntityParam) :
    w.prepareParam acquired p = w.takeStatement acquired p >>= w.bindParam p := by
  unfold prepareParam takeStatement bindParam
  generalize p.sql w.kind w.onConflict = sql
  dsimp only
  cases acquired.lookup sql with
  | some statement => rfl
  | none => simp only [bind_assoc]

theorem only_takeStatement {acquired : List (String × String)}
    (hacquired : ∀ a ∈ acquired, IsStatement a.2) (p : EntityParam) :
    EmitsOnly (PreparationLine object) object k k (w.takeStatement acquired p) fun taken =>
      IsStatement taken.1 ∧ ∀ a ∈ taken.2, IsStatement a.2 := by
  unfold takeStatement
  dsimp only
  split
  · rename_i statement hlookup
    obtain ⟨before, after, hsplit, -⟩ := List.lookup_eq_some_iff.1 hlookup
    have hmem : (p.sql w.kind w.onConflict, statement) ∈ acquired := by simp [hsplit]
    exact only_pure ⟨hacquired _ hmem, hacquired⟩
  · refine (only_onMembers _).bind fun field _ => (only_freshStatement (by decide)).bind fun statement h => ?_
    refine only_receiver.bind fun this _ => (only_statement ?_).bind fun _ _ => only_pure ?_
    · simp only [String.append_assoc]
      exact .acquireMut h _
    · exact ⟨h, List.forall_mem_cons.2 ⟨h, hacquired⟩⟩

theorem only_bindParam (p : EntityParam) {taken : String × List (String × String)}
    (h : IsStatement taken.1) (hacquired : ∀ a ∈ taken.2, IsStatement a.2) :
    EmitsOnly (PreparationLine object) object k k (w.bindParam p taken) fun r =>
      (IsStatement r.1.statement ∧ ∀ x ∈ r.1.bind.lines, PreparationLine object x.2) ∧
        ∀ a ∈ r.2, IsStatement a.2 := by
  have hbinds : ∀ owner : String, EmitsOnly (PreparationLine object) object 0 0
      (((p.boundColumns w.kind).zipIdx 1).forM fun (column, index) =>
        column.binder.write taken.1 (toString index) (column.value owner)) fun _ => True :=
    fun owner => EmitsOnly.forM _ fun (column, index) _ =>
      column.binder.only_write conversionNames_subset_preparation h _ (column.value owner)
  unfold bindParam
  dsimp only
  split
  · refine EmitsOnly.bind ((only_fresh "item").bind fun item _ => only_pure trivial)
      fun item (_ : True) => (hbinds (item.getD p.name)).fork.bind fun bind hbind => ?_
    exact only_pure ⟨⟨h, hbind⟩, hacquired⟩
  · refine EmitsOnly.bind (only_pure trivial) fun item (_ : True) =>
      (hbinds (item.getD p.name)).fork.bind fun bind hbind => ?_
    exact only_pure ⟨⟨h, hbind⟩, hacquired⟩

theorem only_prepareParam {acquired : List (String × String)}
    (hacquired : ∀ a ∈ acquired, IsStatement a.2) (p : EntityParam) :
    EmitsOnly (PreparationLine object) object k k (w.prepareParam acquired p) fun r =>
      (IsStatement r.1.statement ∧ ∀ x ∈ r.1.bind.lines, PreparationLine object x.2) ∧
        ∀ a ∈ r.2, IsStatement a.2 := by
  rw [prepareParam_eq]
  exact (w.only_takeStatement hacquired p).bind fun taken htaken =>
    w.only_bindParam p htaken.1 htaken.2

theorem only_prepareParams (params : List EntityParam) {acquired : List (String × String)}
    (hacquired : ∀ a ∈ acquired, IsStatement a.2) :
    EmitsOnly (PreparationLine object) object k k (w.prepareParams acquired params) fun es =>
      params.length = es.length ∧
        ∀ e ∈ es, IsStatement e.statement ∧ ∀ x ∈ e.bind.lines, PreparationLine object x.2 := by
  induction params generalizing acquired with
  | nil => exact only_pure (by simp)
  | cons p rest ih =>
    refine (w.only_prepareParam hacquired p).bind fun r hr => ?_
    refine (ih hr.2).bind fun es ⟨hlength, hes⟩ => only_pure ⟨?_, ?_⟩
    · rw [List.length_cons, List.length_cons, hlength]
    · exact List.forall_mem_cons.2 ⟨hr.1, hes⟩

theorem only_prepare :
    EmitsOnly (PreparationLine object) object k k w.prepare (IsPrepared object w.params.length) :=
  (w.only_prepareParams w.params (by simp)).bind fun _ hes => only_pure hes

end EntityWrite

end Statement

end DataAccess
