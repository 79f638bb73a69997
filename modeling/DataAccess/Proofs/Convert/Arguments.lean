import DataAccess.Proofs.Convert.Binding

/-!
What the code of a list of arguments does: it binds all cells in order, at indices without gaps.
-/

set_option autoImplicit false

namespace DataAccess.Convert

open Code

/-- Where the next cell goes: the index that a counter holds, or else the number of the argument. -/
def Stands {V : Type} (counter? : Option String) (k : Nat) (ls : Locals V) (i : Nat) : Prop :=
  match counter? with
  | some counter => ls.lookup counter = some (.number i)
  | none => i = k

/-- A program reads the parameter `x` and binds the cells of its value. -/
structure Binds (counter? : Option String) (stmt : String) (k : Nat) (x : String) (a : Argument)
    (p : Program) (hidden : List String) : Prop where
  hidden_subset : hidden ⊆ p.locals
  unshadowed_eq : ∀ visible, p.unshadowed visible = (Var.parameter x).isClear (hidden ++ visible)
  stuck : ∀ {V : Type} {rt : Runtime V} {arguments : String → V} {ls : Locals V},
    (ls.shade hidden).read rt arguments x = none → p.exec rt arguments ls = none
  runs : ∀ {V : Type} {rt : Runtime V} {arguments : String → V} {ls : Locals V} {v : V}
    {s : Prepared V} {i : Nat}, (ls.shade hidden).read rt arguments x = some v →
    ls.lookup stmt = some (.statement s) → Stands counter? k ls i →
    ∃ ls', p.exec rt arguments ls = some ls' ∧
      ls'.lookup stmt = some (.statement (s.bindAll i (a.cells rt v))) ∧
      Stands counter? (k + 1) ls' (i + (a.cells rt v).length)

/-- If the code of an argument ran, then it has read some value for it and bound the cells of that. -/
theorem Binds.of_exec_append {counter? : Option String} {stmt x : String} {k : Nat} {a : Argument}
    {q r : Program} {hidden : List String} (h : Binds counter? stmt k x a q hidden) {V : Type}
    {rt : Runtime V} {arguments : String → V} {ls ls' : Locals V} {s : Prepared V} {i : Nat}
    (hs : ls.lookup stmt = some (.statement s)) (hi : Stands counter? k ls i)
    (hexec : (q.append r).exec rt arguments ls = some ls') :
    ∃ v ls₁, (ls.shade hidden).read rt arguments x = some v ∧
      q.exec rt arguments ls = some ls₁ ∧ r.exec rt arguments ls₁ = some ls' ∧
      ls₁.lookup stmt = some (.statement (s.bindAll i (a.cells rt v))) ∧
      Stands counter? (k + 1) ls₁ (i + (a.cells rt v).length) := by
  rw [Program.exec_append] at hexec
  obtain ⟨ls₁, hq, hr⟩ := Option.bind_eq_some_iff.1 hexec
  cases hread : (ls.shade hidden).read rt arguments x with
  | none =>
    rw [h.stuck hread] at hq
    cases hq
  | some v =>
    obtain ⟨ls₂, hexec₂, hs₂, hi₂⟩ := h.runs hread hs hi
    obtain rfl : ls₂ = ls₁ := Option.some.inj (hexec₂.symm.trans hq)
    exact ⟨v, ls₂, rfl, hq, hr, hs₂, hi₂⟩

section Running

variable {x : Var} {hidden : List String} {stmt counter item : String} {p : Program}
  {cell : (V : Type) → Runtime V → V → Cell V}
  {V : Type} {rt : Runtime V} {arguments : String → V} {ls : Locals V} {s : Prepared V} {i : Nat}

/-- A binding at the index that a counter holds, and the advance of the counter. -/
theorem exec_advance (h : Reads x hidden stmt (bindCell (.held counter) cell) p)
    (hcounter : counter ∉ p.locals) (hne : counter ≠ stmt) {v : V}
    (hread : (ls.shade hidden).read rt arguments x.name = some v)
    (hstmt : ls.lookup stmt = some (.statement s)) (hi : ls.lookup counter = some (.number i)) :
    ∃ ls', (p.append (.step (.advance counter) .done)).exec rt arguments ls = some ls' ∧
      ls'.lookup stmt = some (.statement (s.bindAll i [cell V rt v])) ∧
      ls'.lookup counter = some (.number (i + 1)) := by
  have hupdate : bindCell (.held counter) cell V rt ls v (.statement s) =
      some (.statement (s.bind i (cell V rt v))) := by
    simp [bindCell, Amount.eval, Locals.number?, hi]
  obtain ⟨ls₁, hexec, hstmt₁, hframe⟩ := h.runs hread hstmt hupdate
  have hi₁ : ls₁.lookup counter = some (.number i) := (hframe counter hcounter hne).trans hi
  refine ⟨ls₁.assign counter (.number (i + 1)), ?_, ?_, ?_⟩
  · simp [Program.exec_append, Program.exec, Instr.exec, Locals.number?, hexec, hi₁]
  · exact (Locals.lookup_assign_ne hne.symm).trans hstmt₁
  · exact Locals.lookup_assign_self (Locals.mem_names_of_lookup hi₁)

/-- The rounds of a loop bind the cells of the elements in order. -/
theorem exec_rounds (h : Reads (.temporary item) hidden stmt (bindCell (.held counter) cell) p)
    (hitem : item ∉ p.locals) (hstmt : stmt ∉ p.locals) (hcounter : counter ∉ p.locals)
    (hne : counter ≠ stmt) (his : item ≠ stmt) (hic : item ≠ counter) (ws : List V)
    (hs : ls.lookup stmt = some (.statement s)) (hi : ls.lookup counter = some (.number i)) :
    ∃ ls', ws.foldlM (fun (ls : Locals V) w =>
        ((p.append (.step (.advance counter) .done)).exec rt arguments
          ((item, .value (rt.clone w)) :: ls)).map ls.leave) ls = some ls' ∧
      ls'.lookup stmt =
        some (.statement (s.bindAll i (ws.map fun w => cell V rt (rt.clone w)))) ∧
      ls'.lookup counter = some (.number (i + ws.length)) := by
  induction ws generalizing ls s i with
  | nil => exact ⟨ls, rfl, by rw [List.map_nil, Prepared.bindAll_nil, hs], hi⟩
  | cons w ws ih =>
    have hread : Locals.read rt arguments
        (Locals.shade hidden ((item, .value (rt.clone w)) :: ls)) item = some (rt.clone w) := by
      rw [Locals.read_congr (Locals.lookup_shade fun hmem => hitem (h.hidden_subset hmem))]
      exact Locals.read_value List.lookup_cons_self
    obtain ⟨inner, hexec, hs₁, hi₁⟩ := exec_advance h hcounter hne hread
      ((Locals.lookup_cons_ne his.symm).trans hs) ((Locals.lookup_cons_ne hic.symm).trans hi)
    have hnames : inner.names = (p.declares ++ [item]) ++ ls.names := by
      rw [Program.names_exec hexec, Program.declares_append, Locals.names_cons]
      simp [Program.declares, Instr.declares]
    have hbehind : ∀ n, n ∉ p.locals → n ≠ item → (ls.leave inner).lookup n = inner.lookup n := by
      intro n hn hne
      refine Locals.lookup_leave hnames fun hmem => ?_
      rcases List.mem_append.1 hmem with hmem | hmem
      · exact hn (Program.mem_locals_of_mem_declares hmem)
      · exact hne (List.mem_singleton.1 hmem)
    obtain ⟨ls', hrest, hs', hi'⟩ := ih ((hbehind stmt hstmt his.symm).trans hs₁)
      ((hbehind counter hcounter hic.symm).trans hi₁)
    refine ⟨ls', ?_, ?_, ?_⟩
    · rw [List.foldlM_cons, hexec]
      exact hrest
    · rw [hs', List.map_cons, ← Prepared.bindAll_cons]
    · rw [hi', List.length_cons]
      congr 2
      omega

end Running

namespace Argument

variable {stmt counter : String} {t : Naming}

theorem binds_draftRunning_value (b : ValueBinder) (x : String) (k : Nat)
    (hstmt : t.Issued stmt) (hcounter : t.Issued counter) (hne : counter ≠ stmt) :
    ∃ hidden, Binds (some counter) stmt k x (value b)
      ((value b).draftRunning stmt counter (.parameter x) t).program hidden := by
  obtain ⟨hidden, hreads, hfresh⟩ := b.reads_draft (.parameter x) hstmt
    fun n (hn : Amount.held counter = .held n) => Amount.held.inj hn ▸ hcounter
  refine ⟨hidden, fun n hn => ?_, fun visible => ?_, fun hread => ?_, fun hread hs hi => ?_⟩
  · exact Program.locals_append.symm ▸ List.mem_append_left _ (hreads.hidden_subset hn)
  · refine Program.unshadowed_append.trans ?_
    rw [hreads.unshadowed_eq]
    simp [Draft.step, Program.unshadowed, Instr.isClear]
  · refine Program.exec_append.trans ?_
    rw [hreads.stuck hread]
    rfl
  · exact exec_advance hreads (fun h => hfresh _ h hcounter) hne hread hs hi

/-- A collection binds its elements in a loop, behind the counter in each of its rounds. -/
theorem binds_draftRunning_collection (b : ValueBinder) (x : String) (k : Nat)
    (hstmt : t.Issued stmt) (hcounter : t.Issued counter) (hne : counter ≠ stmt) :
    ∃ hidden, Binds (some counter) stmt k x (collection b)
      ((collection b).draftRunning stmt counter (.parameter x) t).program hidden := by
  let t₁ := (Draft.fresh "item" t).naming
  have hnew : ¬t.Issued (Draft.fresh "item" t).value := Naming.not_issued_fresh (by decide) t
  have hitem : t₁.Issued (Draft.fresh "item" t).value := Naming.issued_fresh (by decide) t
  have h₁ : t.Extends t₁ := Naming.extends_fresh "item" t
  obtain ⟨hidden, hreads, hfresh⟩ := b.reads_draft (.temporary (Draft.fresh "item" t).value)
    (h₁ _ hstmt) fun n (hn : Amount.held counter = .held n) => Amount.held.inj hn ▸ h₁ _ hcounter
  let body := (b.draft stmt (.held counter) (.temporary (Draft.fresh "item" t).value) t₁).program.append
    (.step (.advance counter) .done)
  have hprogram : ((collection b).draftRunning stmt counter (.parameter x) t).program =
      .each (Draft.fresh "item" t).value (.parameter x) body .done := rfl
  rw [hprogram]
  refine ⟨[], by simp, fun visible => ?_, fun {V rt arguments ls} hread => ?_,
    fun {V rt arguments ls v s i} hread hs hi => ?_⟩
  · have hclear : body.unshadowed ((Draft.fresh "item" t).value :: visible) = true := by
      refine Program.unshadowed_append.trans ?_
      rw [hreads.unshadowed_eq]
      rfl
    simp [Program.unshadowed, hclear]
  · have hread : ls.read rt arguments x = none := hread
    simp [Program.exec, hread]
  · have hread : ls.read rt arguments x = some v := hread
    obtain ⟨ls', hexec, hs', hi'⟩ := exec_rounds hreads (fun h => hfresh _ h hitem)
      (fun h => hfresh _ h (h₁ _ hstmt)) (fun h => hfresh _ h (h₁ _ hcounter)) hne
      (fun he => hnew (he ▸ hstmt)) (fun he => hnew (he ▸ hcounter)) (rt.items v) hs hi
    refine ⟨ls', ?_, hs', ?_⟩
    · simp only [Program.exec, Var.name_parameter, hread, Option.bind_eq_bind, Option.bind_some]
      exact (congrArg (Option.bind · _) hexec).trans rfl
    · rw [Stands, hi', cells, List.length_map]

/-- The code of one argument behind a counter. -/
theorem binds_draftRunning (a : Argument) (x : String) (k : Nat) (hstmt : t.Issued stmt)
    (hcounter : t.Issued counter) (hne : counter ≠ stmt) :
    ∃ hidden, Binds (some counter) stmt k x a
      (a.draftRunning stmt counter (.parameter x) t).program hidden := by
  cases a with
  | value b => exact binds_draftRunning_value b x k hstmt hcounter hne
  | collection b => exact binds_draftRunning_collection b x k hstmt hcounter hne

/-- The code of a single value at its own index. -/
theorem binds_draftAt {a : Argument} (ha : a.isCollection = false) (x : String) (k : Nat)
    (hstmt : t.Issued stmt) :
    ∃ hidden, Binds none stmt k x a (a.draftAt stmt k (.parameter x) t).program hidden := by
  cases a with
  | value b =>
    have hindex : ∀ n, Amount.fixed k = .held n → t.Issued n := nofun
    obtain ⟨hidden, hreads, -⟩ := b.reads_draft (.parameter x) hstmt hindex
    refine ⟨hidden, hreads.hidden_subset, hreads.unshadowed_eq, hreads.stuck,
      fun {V rt arguments ls v s i} hread hs hi => ?_⟩
    obtain rfl : i = k := hi
    obtain ⟨ls', hexec, hs', -⟩ := hreads.runs hread hs rfl
    exact ⟨ls', hexec, hs', rfl⟩
  | collection b => cases ha

end Argument

/-- A program binds the cells of the arguments one after the other. -/
def BindsAll (counter? : Option String) (stmt : String) :
    Nat → List (String × Argument) → Program → Prop
  | _, [], p => p = .done
  | k, (x, a) :: more, p => ∃ hidden q r,
    p = q.append r ∧ Binds counter? stmt k x a q hidden ∧ BindsAll counter? stmt (k + 1) more r

section All

variable {counter? : Option String} {stmt counter : String} {k : Nat}
  {as : List (String × Argument)} {p : Program}

theorem bindsAll_draftRunning (as : List (String × Argument)) (k : Nat) {t : Naming}
    (hstmt : t.Issued stmt) (hcounter : t.Issued counter) (hne : counter ≠ stmt) :
    BindsAll (some counter) stmt k as
      ((as.forM fun (x, a) => a.draftRunning stmt counter (.parameter x) : Draft Unit) t).program := by
  induction as generalizing k t with
  | nil => rfl
  | cons entry as ih =>
    obtain ⟨x, a⟩ := entry
    obtain ⟨hidden, hbinds⟩ := a.binds_draftRunning x k hstmt hcounter hne
    have hextends := a.extends_draftRunning stmt counter (.parameter x) t
    exact ⟨hidden, _, _, rfl, hbinds, ih (k + 1) (hextends _ hstmt) (hextends _ hcounter)⟩

theorem bindsAll_draftAt (as : List (String × Argument)) (k : Nat) {t : Naming}
    (hstmt : t.Issued stmt) (has : ∀ a ∈ as, a.2.isCollection = false) :
    BindsAll none stmt k as
      (((as.zipIdx k).forM fun ((x, a), index) => a.draftAt stmt index (.parameter x) :
        Draft Unit) t).program := by
  induction as generalizing k t with
  | nil => rfl
  | cons entry as ih =>
    obtain ⟨x, a⟩ := entry
    obtain ⟨hidden, hbinds⟩ := a.binds_draftAt (has (x, a) (by simp)) x k hstmt
    have hextends := a.extends_draftAt stmt k (.parameter x) t
    exact ⟨hidden, _, _, rfl, hbinds, ih (k + 1) (hextends _ hstmt) fun a ha => has a (by simp [ha])⟩

/-- All cells, for the values that the parameters have. -/
def cellsOf {V : Type} (rt : Runtime V) (arguments : String → V) (as : List (String × Argument)) :
    List (Cell V) :=
  as.flatMap fun entry => entry.2.cells rt (arguments entry.1)

theorem BindsAll.runs (h : BindsAll counter? stmt k as p) {V : Type} {rt : Runtime V}
    {arguments : String → V} {ls : Locals V} {s : Prepared V} {i : Nat}
    (hclear : p.unshadowed ls.names) (hs : ls.lookup stmt = some (.statement s))
    (hi : Stands counter? k ls i) :
    ∃ ls', p.exec rt arguments ls = some ls' ∧
      ls'.lookup stmt = some (.statement (s.bindAll i (cellsOf rt arguments as))) := by
  induction as generalizing k p ls s i with
  | nil =>
    cases h
    exact ⟨ls, rfl, by rw [cellsOf, List.flatMap_nil, Prepared.bindAll_nil, hs]⟩
  | cons entry as ih =>
    obtain ⟨x, a⟩ := entry
    obtain ⟨hidden, q, r, rfl, hbinds, hrest⟩ := h
    rw [Program.unshadowed_append, hbinds.unshadowed_eq, Bool.and_eq_true] at hclear
    have hread : (ls.shade hidden).read rt arguments x = some (arguments x) := by
      refine Locals.read_parameter ?_
      rw [Locals.names_shade]
      simpa [Var.isClear] using hclear.1
    obtain ⟨ls₁, hexec, hs₁, hi₁⟩ := hbinds.runs hread hs hi
    rw [← Program.names_exec hexec] at hclear
    obtain ⟨ls', hexec', hs'⟩ := ih hrest hclear.2 hs₁ hi₁
    refine ⟨ls', ?_, ?_⟩
    · rw [Program.exec_append, hexec]
      exact hexec'
    · rw [hs', ← Prepared.bindAll_append]
      rfl

/-- Nothing is hidden if no local variable has the name of a parameter. -/
theorem BindsAll.unshadowed_of_not_mem (h : BindsAll counter? stmt k as p) {visible : List String}
    (hnew : ∀ entry ∈ as, entry.1 ∉ p.locals ++ visible) : p.unshadowed visible := by
  induction as generalizing k p visible with
  | nil =>
    cases h
    rfl
  | cons entry as ih =>
    obtain ⟨x, a⟩ := entry
    obtain ⟨hidden, q, r, rfl, hbinds, hrest⟩ := h
    simp only [Program.locals_append, List.mem_append, not_or, List.forall_mem_cons] at hnew
    obtain ⟨⟨⟨hlocal, -⟩, hvisible⟩, hnew⟩ := hnew
    have hhidden : x ∉ hidden := fun hmem => hlocal (hbinds.hidden_subset hmem)
    have hclear : x ∉ hidden ++ visible := by simp [hhidden, hvisible]
    have hr : r.unshadowed (q.declares ++ visible) := by
      refine ih hrest fun entry hentry => ?_
      obtain ⟨⟨hlocal, hr⟩, hvisible⟩ := hnew entry hentry
      have hdeclares := mt Program.mem_locals_of_mem_declares hlocal
      simp [hr, hvisible, hdeclares]
    rw [Program.unshadowed_append, hbinds.unshadowed_eq, hr]
    simpa [Var.isClear] using hclear

/-- The parameters are read where no local variable has their names. -/
theorem BindsAll.not_mem (h : BindsAll counter? stmt k as p) {visible : List String}
    (hclear : p.unshadowed visible) : ∀ entry ∈ as, entry.1 ∉ visible := by
  induction as generalizing k p visible with
  | nil => nofun
  | cons entry as ih =>
    obtain ⟨x, a⟩ := entry
    obtain ⟨hidden, q, r, rfl, hbinds, hrest⟩ := h
    rw [Program.unshadowed_append, hbinds.unshadowed_eq, Bool.and_eq_true] at hclear
    obtain ⟨hx, hr⟩ := hclear
    rw [List.forall_mem_cons]
    refine ⟨fun hmem => ?_, fun entry hentry hmem => ?_⟩
    · simp [Var.isClear, hmem] at hx
    · exact ih hrest hr entry hentry (List.mem_append_right _ hmem)

end All

end DataAccess.Convert
