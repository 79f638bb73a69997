import DataAccess.Proofs.Code.Shadowing

/-!
Programs that read one variable and change one local variable by what they read.
-/

set_option autoImplicit false

namespace DataAccess.Code

/-- Local variables that are declared in front of others and hold nothing so far. -/
def Locals.shade {V : Type} (hidden : List String) (ls : Locals V) : Locals V :=
  hidden.map (fun n => (n, .pending)) ++ ls

namespace Locals

variable {V : Type} {rt : Runtime V} {arguments : String → V} {hidden : List String}
  {name : String} {ls ls' : Locals V}

theorem mem_names_of_lookup {d : Datum V} (h : ls.lookup name = some d) : name ∈ ls.names := by
  refine Classical.not_not.1 fun hmem => ?_
  rw [lookup_eq_none.2 hmem] at h
  cases h

/-- What a block assigns to a variable of the code around it is found behind the block. -/
theorem lookup_leave_assign_self {new : List String} {d : Datum V}
    (h : ls'.names = new ++ ls.names) (hmem : name ∈ ls.names) (hnew : name ∉ new) :
    (ls.leave (ls'.assign name d)).lookup name = some d := by
  rw [lookup_leave (names_assign.trans h) hnew, lookup_assign_self]
  exact h ▸ List.mem_append_right new hmem

/-- Everything else is found as in the block, its own variables apart. -/
theorem lookup_leave_assign_ne {new : List String} {other : String} {d : Datum V}
    (h : ls'.names = new ++ ls.names) (hnew : other ∉ new) (hne : other ≠ name) :
    (ls.leave (ls'.assign name d)).lookup other = ls'.lookup other := by
  rw [lookup_leave (names_assign.trans h) hnew, lookup_assign_ne hne]

theorem lookup_shade (h : name ∉ hidden) : (shade hidden ls).lookup name = ls.lookup name := by
  induction hidden with
  | nil => rfl
  | cons n hidden ih =>
    obtain ⟨hne, htail⟩ := not_or.1 (mt List.mem_cons.2 h)
    exact (lookup_cons_ne hne).trans (ih htail)

theorem shade_concat (n : String) :
    shade hidden ((n, .pending) :: ls) = shade (hidden ++ [n]) ls := by
  simp [shade]

theorem names_shade : (shade hidden ls).names = hidden ++ ls.names := by
  simp [shade, names, Function.comp_def]

theorem read_parameter (h : name ∉ ls.names) :
    ls.read rt arguments name = some (arguments name) := by
  rw [read, lookup_eq_none.2 h]

theorem read_congr (h : ls'.lookup name = ls.lookup name) :
    ls'.read rt arguments name = ls.read rt arguments name := by
  rw [read, read, h]

theorem read_value {v : V} (h : ls.lookup name = some (.value v)) :
    ls.read rt arguments name = some v := by
  rw [read, h]

end Locals

/-- How the content of a local variable follows from what was read. -/
abbrev Update := (V : Type) → Runtime V → Locals V → V → Datum V → Option (Datum V)

/-- The update by a value. -/
def Update.value (f : (V : Type) → Runtime V → V → V) : Update :=
  fun V rt _ v _ => some (.value (f V rt v))

/-- A program reads `x`, behind the declarations of `hidden`, and updates the variable `slot`. -/
structure Reads (x : Var) (hidden : List String) (slot : String) (update : Update)
    (p : Program) : Prop where
  hidden_subset : hidden ⊆ p.locals
  unshadowed_eq : ∀ visible, p.unshadowed visible = x.isClear (hidden ++ visible)
  stuck : ∀ {V : Type} {rt : Runtime V} {arguments : String → V} {ls : Locals V},
    (ls.shade hidden).read rt arguments x.name = none → p.exec rt arguments ls = none
  runs : ∀ {V : Type} {rt : Runtime V} {arguments : String → V} {ls : Locals V} {v : V}
    {d d' : Datum V}, (ls.shade hidden).read rt arguments x.name = some v →
    ls.lookup slot = some d → update V rt ls v d = some d' →
    ∃ ls', p.exec rt arguments ls = some ls' ∧ ls'.lookup slot = some d' ∧
      ∀ n, n ∉ p.locals → n ≠ slot → ls'.lookup n = ls.lookup n

namespace Reads

variable {x : Var} {hidden hidden' : List String} {slot middle type : String} {update : Update}
  {f : (V : Type) → Runtime V → V → V} {p q : Program}

theorem assign {step : Conversion} (h : ∀ V rt v, step.apply rt v = f V rt v) :
    Reads x [] slot (.value f) (.step (.assign slot (.convert step x)) .done) where
  hidden_subset := by simp
  unshadowed_eq visible := by simp [Program.unshadowed, Instr.isClear, Expr.isClear]
  stuck {V rt arguments ls} hread := by
    have hread : ls.read rt arguments x.name = none := hread
    simp [Program.exec, Instr.exec, Expr.eval, hread]
  runs {V rt arguments ls v d d'} hread hslot hupdate := by
    have hread : ls.read rt arguments x.name = some v := hread
    cases hupdate
    refine ⟨ls.assign slot (.value (f V rt v)), ?_, ?_, fun n _ hn => Locals.lookup_assign_ne hn⟩
    · simp [Program.exec, Instr.exec, Expr.eval, hread, h]
    · exact Locals.lookup_assign_self (Locals.mem_names_of_lookup hslot)

/-- A value that is first put into a variable of its own. -/
theorem through (hp : Reads x hidden middle (.value f) p)
    (hq : Reads (.temporary middle) hidden' slot update q)
    (hupdate : ∀ {V : Type} {rt : Runtime V} {ls ls' : Locals V},
      (∀ n, n ∉ p.locals → n ≠ middle → ls'.lookup n = ls.lookup n) →
      update V rt ls' = update V rt ls)
    (hslot : slot ∉ p.locals) (hne : slot ≠ middle) (hmiddle : middle ∉ q.locals) :
    Reads x (hidden ++ [middle]) slot (fun V rt ls v => update V rt ls (f V rt v))
      (.step (.declare middle type) (p.append q)) where
  hidden_subset := by
    intro n hn
    rw [Program.locals, Program.locals_append]
    rcases List.mem_append.1 hn with hn | hn
    · exact List.mem_append_right _ (List.mem_append_left _ (hp.hidden_subset hn))
    · exact List.mem_append_left _ hn
  unshadowed_eq visible := by
    rw [Program.unshadowed, Program.unshadowed_append, hp.unshadowed_eq, hq.unshadowed_eq]
    simp [Instr.isClear, Instr.declares, Var.isClear]
  stuck {V rt arguments ls} hread := by
    rw [← Locals.shade_concat] at hread
    rw [Program.exec]
    simp [Instr.exec, Program.exec_append, hp.stuck hread]
  runs {V rt arguments ls v d d'} hread hlookup hd := by
    rw [← Locals.shade_concat] at hread
    obtain ⟨ls₁, hexec₁, hvalue, hframe₁⟩ :=
      hp.runs hread List.lookup_cons_self (Eq.refl (some (Datum.value (f V rt v))))
    have hframe : ∀ n, n ∉ p.locals → n ≠ middle → ls₁.lookup n = ls.lookup n :=
      fun n hn hm => (hframe₁ n hn hm).trans (Locals.lookup_cons_ne hm)
    have hread' : (ls₁.shade hidden').read rt arguments middle = some (f V rt v) := by
      rw [Locals.read_congr (Locals.lookup_shade fun h => hmiddle (hq.hidden_subset h))]
      exact Locals.read_value hvalue
    have hd' : update V rt ls₁ (f V rt v) d = some d' := by
      rw [hupdate hframe]
      exact hd
    obtain ⟨ls₂, hexec₂, hslot₂, hframe₂⟩ :=
      hq.runs hread' ((hframe slot hslot hne).trans hlookup) hd'
    refine ⟨ls₂, ?_, hslot₂, fun n hn hns => ?_⟩
    · rw [Program.exec]
      simp [Instr.exec, Program.exec_append, hexec₁, hexec₂]
    · rw [Program.locals, Program.locals_append] at hn
      simp only [Instr.declares, List.singleton_append, List.mem_cons, List.mem_append,
        not_or] at hn
      rw [hframe₂ n hn.2.2 hns, hframe n hn.2.1 hn.1]

/-- A program in a block that holds what it reads, and in front of it a variable for what it makes:
the result is in that variable, and the variables around the block are as before. -/
theorem runs_inside {value converted : String}
    (hp : Reads (.temporary value) hidden converted (.value f) p) (hvalue : value ∉ p.locals)
    (hne : value ≠ converted) {V : Type} (rt : Runtime V) (arguments : String → V) (ls : Locals V)
    (w : V) :
    ∃ ls', p.exec rt arguments ((converted, .pending) :: (value, .value w) :: ls) = some ls' ∧
      ls'.names = (p.declares ++ [converted, value]) ++ ls.names ∧
      ls'.lookup converted = some (.value (f V rt w)) ∧
      ∀ n, n ∉ p.locals → n ≠ converted → n ≠ value →
        n ∉ p.declares ++ [converted, value] ∧ ls'.lookup n = ls.lookup n := by
  have hread : Locals.read rt arguments
      (Locals.shade hidden ((converted, .pending) :: (value, .value w) :: ls)) value = some w := by
    rw [Locals.read_congr (Locals.lookup_shade fun h => hvalue (hp.hidden_subset h))]
    exact Locals.read_value ((Locals.lookup_cons_ne hne).trans List.lookup_cons_self)
  obtain ⟨ls', hexec, hresult, hframe⟩ :=
    hp.runs hread List.lookup_cons_self (Eq.refl (some (Datum.value (f V rt w))))
  refine ⟨ls', hexec, ?_, hresult, fun n hn hconverted hpresent => ⟨fun hmem => ?_, ?_⟩⟩
  · rw [Program.names_exec hexec, Locals.names_cons, Locals.names_cons, List.append_assoc]
    rfl
  · rcases List.mem_append.1 hmem with hmem | hmem
    · exact hn (Program.mem_locals_of_mem_declares hmem)
    · simp_all
  · exact (hframe n hn hconverted).trans
      ((Locals.lookup_cons_ne hconverted).trans (Locals.lookup_cons_ne hpresent))

/-- The lift of an update by a value to what is present of an optional value. -/
theorem inspect {value converted : String}
    (hp : Reads (.temporary value) hidden converted (.value f) p)
    (hvalue : value ∉ p.locals) (hne : value ≠ converted) (hslot : slot ∉ p.locals)
    (hconverted : slot ≠ converted) (hpresent : slot ≠ value) :
    Reads x [] slot
      (.value fun V rt v => ((rt.content? v).map fun w => rt.wrap (f V rt w)).getD rt.absent)
      (.inspect x (.assign slot .absent) value
        (.step (.declare converted type)
          (p.append (.step (.assign slot (.convert .wrap (.temporary converted))) .done))) .done) where
  hidden_subset := by simp
  unshadowed_eq visible := by
    simp [Program.unshadowed, Program.unshadowed_append, hp.unshadowed_eq, Instr.isClear,
      Expr.isClear, Var.isClear]
  stuck {V rt arguments ls} hread := by
    have hread : ls.read rt arguments x.name = none := hread
    simp [Program.exec, hread]
  runs {V rt arguments ls v d d'} hread hlookup hupdate := by
    have hread : ls.read rt arguments x.name = some v := hread
    have hmem : slot ∈ ls.names := Locals.mem_names_of_lookup hlookup
    cases hupdate
    cases hcontent : rt.content? v with
    | none =>
      have hsame : ls.names = [] ++ ls.names := rfl
      refine ⟨ls.leave (ls.assign slot (.value rt.absent)), ?_, ?_, fun n _ hn => ?_⟩
      · simp [Program.exec, Instr.exec, Expr.eval, hread, hcontent]
      · rw [Locals.lookup_leave_assign_self hsame hmem List.not_mem_nil]
        simp [hcontent]
      · exact Locals.lookup_leave_assign_ne hsame List.not_mem_nil hn
    | some w =>
      obtain ⟨ls₁, hexec, hnames, hresult, hframe⟩ := hp.runs_inside hvalue hne rt arguments ls w
      have hread₁ : ls₁.read rt arguments converted = some (f V rt w) := Locals.read_value hresult
      refine ⟨ls.leave (ls₁.assign slot (.value (rt.wrap (f V rt w)))), ?_, ?_, fun n hn hs => ?_⟩
      · simp [Program.exec, Program.exec_append, Instr.exec, Expr.eval, Conversion.apply, hread,
          hcontent, hexec, hread₁]
      · obtain ⟨hnew, -⟩ := hframe slot hslot hconverted hpresent
        rw [Locals.lookup_leave_assign_self hnames hmem hnew]
        simp [hcontent]
      · simp only [Program.locals, Program.locals_append, Instr.declares, List.mem_cons,
          List.append_nil, List.singleton_append, not_or] at hn
        obtain ⟨hnew, hsame⟩ := hframe n hn.2.2 hn.2.1 hn.1
        rw [Locals.lookup_leave_assign_ne hnames hnew hs, hsame]

end Reads

end DataAccess.Code
