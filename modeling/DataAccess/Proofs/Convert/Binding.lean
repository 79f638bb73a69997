import DataAccess.Proofs.Code.Reading
import DataAccess.Proofs.Convert.Drafts

/-!
What the code of a value does: it reads the value once and binds its cell, whatever names the
variables around it have.
-/

set_option autoImplicit false

namespace DataAccess.Convert

open Code

/-- The value that a converter makes of another one. -/
def Converter.apply {V : Type} (rt : Runtime V) (c : Converter) (v : V) : V :=
  match c with
  | identity _ => rt.clone v
  | boolToInt => rt.intOfBool v
  | intToBool => rt.boolOfInt v
  | optionBoolToInt => ((rt.content? v).map fun w => rt.wrap (rt.intOfBool w)).getD rt.absent
  | optionIntToBool => ((rt.content? v).map fun w => rt.wrap (rt.boolOfInt w)).getD rt.absent
  | custom m => rt.call m (rt.clone v)
  | nullSafe inner => ((rt.content? v).map fun w => rt.wrap (inner.apply rt w)).getD rt.absent
  | chain first second => second.apply rt (first.apply rt v)

/-- What a column holds for one of its values. -/
def ColumnType.cell {V : Type} (rt : Runtime V) (c : ColumnType) (v : V) : Cell V :=
  if c.optional then ((rt.content? v).map (.value c.form.kind)).getD .null else .value c.form.kind v

/-- What a value is bound as. -/
def ValueBinder.cell {V : Type} (rt : Runtime V) (b : ValueBinder) (v : V) : Cell V :=
  b.column.cell rt ((b.converter.map fun c => c.apply rt v).getD v)

/-- What an argument is bound as: one cell, or one for each element. -/
def Argument.cells {V : Type} (rt : Runtime V) (a : Argument) (v : V) : List (Cell V) :=
  match a with
  | value b => [b.cell rt v]
  | collection b => (rt.items v).map fun w => b.cell rt (rt.clone w)

/-- The update of a statement by the binding of a cell. -/
def bindCell (index : Amount) (cell : (V : Type) → Runtime V → V → Cell V) : Update :=
  fun V rt ls v d =>
    match d with
    | .statement s => (index.eval ls).map fun i => .statement (s.bind i (cell V rt v))
    | _ => none

/-- The draft makes no variable of a name that was given before. -/
def IsFresh (t : Naming) (d : Draft Unit) : Prop := ∀ n ∈ (d t).program.locals, ¬t.Issued n

/-- A value is put into a new variable and taken from there, and both drafts make new variables
only: so does the whole. -/
theorem not_issued_through {t t₁ t₂ : Naming} {middle type : String} {d e : Draft Unit}
    (hmiddle : ¬t.Issued middle) (h₁ : t.Extends t₁) (h₂ : t₁.Extends t₂) (hd : IsFresh t₁ d)
    (he : IsFresh t₂ e) :
    ∀ n ∈ (Program.step (.declare middle type) ((d t₁).program.append (e t₂).program)).locals,
      ¬t.Issued n := by
  intro n hn
  simp only [Program.locals, Program.locals_append, Instr.declares, List.singleton_append,
    List.mem_cons, List.mem_append] at hn
  rcases hn with rfl | hn | hn
  · exact hmiddle
  · exact fun h => hd n hn (h₁ _ h)
  · exact fun h => he n hn (h₂ _ (h₁ _ h))

theorem eval_congr {V : Type} {ls ls' : Locals V} {index : Amount}
    (h : ∀ n, index = .held n → ls'.lookup n = ls.lookup n) : index.eval ls' = index.eval ls := by
  cases index with
  | fixed n => rfl
  | held n => rw [Amount.eval, Amount.eval, Locals.number?, Locals.number?, h n rfl]

section Column

variable {x : Var} {stmt present : String} {index : Amount} {kind : CellKind}

theorem reads_bind {borrowed : Bool} :
    Reads x [] stmt (bindCell index fun _ _ v => .value kind v)
      (.step (.bind stmt index kind borrowed x) .done) where
  hidden_subset := by simp
  unshadowed_eq visible := by simp [Program.unshadowed, Instr.isClear]
  stuck {V rt arguments ls} hread := by
    have hread : ls.read rt arguments x.name = none := hread
    simp [Program.exec, Instr.exec, hread]
  runs {V rt arguments ls v d d'} hread hslot hupdate := by
    have hread : ls.read rt arguments x.name = some v := hread
    cases d with
    | statement s =>
      obtain ⟨i, hi, rfl⟩ := Option.map_eq_some_iff.1 hupdate
      refine ⟨_, ?_, Locals.lookup_assign_self (Locals.mem_names_of_lookup hslot),
        fun n _ hn => Locals.lookup_assign_ne hn⟩
      simp [Program.exec, Instr.exec, Locals.statement?, hslot, hread, hi]
    | _ => cases hupdate

theorem reads_select (hindex : ∀ n, index = .held n → n ≠ present) (hne : stmt ≠ present) :
    Reads x [] stmt
      (bindCell index fun _ rt v => ((rt.content? v).map (.value kind)).getD .null)
      (.select x (.bindNull stmt index) present (.bind stmt index kind true (.temporary present))
        .done) where
  hidden_subset := by simp
  unshadowed_eq visible := by simp [Program.unshadowed, Instr.isClear, Var.isClear]
  stuck {V rt arguments ls} hread := by
    have hread : ls.read rt arguments x.name = none := hread
    simp [Program.exec, hread]
  runs {V rt arguments ls v d d'} hread hslot hupdate := by
    have hread : ls.read rt arguments x.name = some v := hread
    cases d with
    | statement s =>
      obtain ⟨i, hi, rfl⟩ := Option.map_eq_some_iff.1 hupdate
      have hmem := Locals.mem_names_of_lookup hslot
      cases hcontent : rt.content? v with
      | none =>
        have hsame : ls.names = [] ++ ls.names := rfl
        refine ⟨ls.leave (ls.assign stmt (.statement (s.bind i .null))), ?_, ?_,
          fun n _ hn => Locals.lookup_leave_assign_ne hsame List.not_mem_nil hn⟩
        · simp [Program.exec, Instr.exec, Locals.statement?, hslot, hread, hi, hcontent]
        · rw [Locals.lookup_leave_assign_self hsame hmem List.not_mem_nil]
          simp [hcontent]
      | some w =>
        let inner : Locals V := (present, .value w) :: ls
        have hframe : ∀ n, n ≠ present → inner.lookup n = ls.lookup n :=
          fun n hn => Locals.lookup_cons_ne hn
        have hnames : inner.names = [present] ++ ls.names := rfl
        have hi' : index.eval inner = some i := by
          rw [eval_congr fun n hn => hframe n (hindex n hn), hi]
        have hstmt := (hframe stmt hne).trans hslot
        refine ⟨ls.leave (inner.assign stmt (.statement (s.bind i (.value kind w)))), ?_, ?_,
          fun n hn hs => ?_⟩
        · have hpresent : inner.read rt arguments present = some w :=
            Locals.read_value List.lookup_cons_self
          simp only [Program.exec, Instr.exec, Locals.statement?, hread, hcontent, hi', hstmt,
            hpresent, Var.name_temporary, Option.bind_eq_bind, Option.bind_some, Option.pure_def,
            inner]
        · rw [Locals.lookup_leave_assign_self hnames hmem (by simpa using hne)]
          simp [hcontent]
        · have hn : n ∉ [present] := by simpa [Program.locals] using hn
          rw [Locals.lookup_leave_assign_ne hnames hn hs, hframe n (List.ne_of_not_mem_cons hn)]
    | _ => cases hupdate

theorem ColumnType.reads_draft (c : ColumnType) (x : Var) {t : Naming} (hstmt : t.Issued stmt)
    (hindex : ∀ n, index = .held n → t.Issued n) :
    Reads x [] stmt (bindCell index fun _ rt v => c.cell rt v) (c.draft stmt index x t).program ∧
      IsFresh t (c.draft stmt index x) := by
  unfold IsFresh ColumnType.draft ColumnType.cell
  by_cases h : c.optional
  · have hnew : ¬t.Issued (Draft.fresh "value" t).value := Naming.not_issued_fresh (by decide) t
    simp only [if_pos h]
    refine ⟨reads_select (fun n hn he => hnew ?_) fun he => hnew ?_, fun n hn => ?_⟩
    · exact he ▸ hindex n hn
    · exact he ▸ hstmt
    · obtain rfl : n = (Draft.fresh "value" t).value := List.mem_singleton.1 hn
      exact hnew
  · simp only [if_neg h]
    refine ⟨reads_bind, fun n hn => ?_⟩
    cases hn

end Column

namespace Converter

/-- Whatever it converts, and wherever the result goes, the draft of the conversion reads what it
converts, and names its variables afresh. -/
def DraftReads (c : Converter) : Prop :=
  ∀ (x : Var) {output : String} {t : Naming}, t.Issued output →
    ∃ hidden, Reads x hidden output (.value fun _ rt v => c.apply rt v)
      (c.draft x output t).program ∧ IsFresh t (c.draft x output)

theorem DraftReads.nullSafe {inner : Converter} (ih : inner.DraftReads) :
    (nullSafe inner).DraftReads := by
  intro x output t houtput
  let t₁ := (Draft.fresh "value" t).naming
  let t₂ := (Draft.fresh "converted" t₁).naming
  have hnewValue : ¬t.Issued (Draft.fresh "value" t).value := Naming.not_issued_fresh (by decide) t
  have hvalue : t₁.Issued (Draft.fresh "value" t).value := Naming.issued_fresh (by decide) t
  have hnewConverted : ¬t₁.Issued (Draft.fresh "converted" t₁).value :=
    Naming.not_issued_fresh (by decide) t₁
  have hconverted : t₂.Issued (Draft.fresh "converted" t₁).value :=
    Naming.issued_fresh (by decide) t₁
  have h₁ : t.Extends t₁ := Naming.extends_fresh "value" t
  have h₂ : t₁.Extends t₂ := Naming.extends_fresh "converted" t₁
  obtain ⟨hidden, hreads, hfresh⟩ := ih (.temporary _) hconverted
  refine ⟨[], hreads.inspect (fun h => hfresh _ h (h₂ _ hvalue)) ?_
    (fun h => hfresh _ h (h₂ _ (h₁ _ houtput))) ?_ ?_, fun n hn => ?_⟩
  · exact fun he => hnewConverted (he ▸ hvalue)
  · exact fun he => hnewConverted (he ▸ h₁ _ houtput)
  · exact fun he => hnewValue (he ▸ houtput)
  · replace hn : n ∈ (Program.inspect x (.assign output .absent) (Draft.fresh "value" t).value
        (.step (.declare (Draft.fresh "converted" t₁).value inner.target.display)
          ((inner.draft (.temporary (Draft.fresh "value" t).value)
            (Draft.fresh "converted" t₁).value t₂).program.append (.step _ .done))) .done).locals := hn
    simp only [Program.locals, Program.locals_append, Instr.declares, List.append_nil,
      List.singleton_append, List.mem_cons] at hn
    rcases hn with rfl | rfl | hn
    · exact hnewValue
    · exact fun h => hnewConverted (h₁ _ h)
    · exact fun h => hfresh n hn (h₂ _ (h₁ _ h))

theorem DraftReads.chain {first second : Converter} (hfirst : first.DraftReads)
    (hsecond : second.DraftReads) : (chain first second).DraftReads := by
  intro x output t houtput
  let t₁ := (Draft.fresh "tmp" t).naming
  let t₂ := (first.draft x (Draft.fresh "tmp" t).value t₁).naming
  have hnew : ¬t.Issued (Draft.fresh "tmp" t).value := Naming.not_issued_fresh (by decide) t
  have hmiddle : t₁.Issued (Draft.fresh "tmp" t).value := Naming.issued_fresh (by decide) t
  have h₁ : t.Extends t₁ := Naming.extends_fresh "tmp" t
  have h₂ : t₁.Extends t₂ := first.extends_draft _ _ t₁
  obtain ⟨hidden, hp, hfreshp⟩ := hfirst x hmiddle
  obtain ⟨hidden', hq, hfreshq⟩ := hsecond (.temporary _) (h₂ _ (h₁ _ houtput))
  refine ⟨_, hp.through hq (fun _ => rfl) (fun h => hfreshp _ h (h₁ _ houtput))
    (fun he => hnew (he ▸ houtput)) (fun h => hfreshq _ h (h₂ _ hmiddle)),
    not_issued_through hnew h₁ h₂ hfreshp hfreshq⟩

theorem reads_draft (c : Converter) : c.DraftReads := by
  induction c with
  | identity | boolToInt | intToBool | optionBoolToInt | optionIntToBool =>
    intro x output t _
    refine ⟨[], Reads.assign fun _ _ _ => rfl, fun n hn => ?_⟩
    cases hn
  | custom m =>
    intro x output t _
    have hprogram : ((custom m).draft x output t).program =
        (draftCallee m t).program.append
          (.step (.assign output (.convert (.call m (draftCallee m t).value) x)) .done) := rfl
    rw [IsFresh, hprogram, program_draftCallee]
    refine ⟨[], Reads.assign fun _ _ _ => rfl, fun n hn => ?_⟩
    cases hn
  | nullSafe inner ih => exact ih.nullSafe
  | chain first second hfirst hsecond => exact hfirst.chain hsecond

end Converter

theorem ValueBinder.reads_draft (b : ValueBinder) {stmt : String} {index : Amount} (x : Var)
    {t : Naming} (hstmt : t.Issued stmt) (hindex : ∀ n, index = .held n → t.Issued n) :
    ∃ hidden, Reads x hidden stmt (bindCell index fun _ rt v => b.cell rt v)
        (b.draft stmt index x t).program ∧ IsFresh t (b.draft stmt index x) := by
  obtain ⟨type, column, converter⟩ := b
  cases converter with
  | none =>
    obtain ⟨hreads, hfresh⟩ := column.reads_draft x hstmt hindex
    exact ⟨[], hreads, hfresh⟩
  | some c =>
    let t₁ := (Draft.fresh "tmp" t).naming
    let t₂ := (c.draft x (Draft.fresh "tmp" t).value t₁).naming
    have hnew : ¬t.Issued (Draft.fresh "tmp" t).value := Naming.not_issued_fresh (by decide) t
    have hstored : t₁.Issued (Draft.fresh "tmp" t).value := Naming.issued_fresh (by decide) t
    have h₁ : t.Extends t₁ := Naming.extends_fresh "tmp" t
    have h₂ : t₁.Extends t₂ := c.extends_draft _ _ t₁
    obtain ⟨hidden, hp, hfreshp⟩ := c.reads_draft x hstored
    obtain ⟨hq, hfreshq⟩ := column.reads_draft (.temporary (Draft.fresh "tmp" t).value)
      (h₂ _ (h₁ _ hstmt)) fun n hn => h₂ _ (h₁ _ (hindex n hn))
    refine ⟨_, hp.through hq (fun hframe => ?_) (fun h => hfreshp _ h (h₁ _ hstmt))
      (fun he => hnew (he ▸ hstmt)) (fun h => hfreshq _ h (h₂ _ hstored)),
      not_issued_through hnew h₁ h₂ hfreshp hfreshq⟩
    funext v d
    cases d with
    | statement s =>
      have heval := eval_congr fun n hn => hframe n
        (fun h => hfreshp n h (h₁ _ (hindex n hn))) fun he => hnew (he ▸ hindex n hn)
      rw [bindCell, bindCell, heval]
    | _ => rfl

end DataAccess.Convert
