import DataAccess.Proofs.Convert.Arguments

/-!
A runtime in which a value is the number of steps that it has gone through. Parameters are all zero
and everything else is not, so that a parameter which is hidden by a local variable shows.
-/

set_option autoImplicit false

namespace DataAccess.Convert

open Code

def counting : Runtime Nat where
  items v := [v]
  content? v := some (v + 1)
  clone v := v + 1
  wrap v := v + 1
  absent := 1
  intOfBool v := v + 1
  boolOfInt v := v + 1
  call _ v := v + 1
  ofText _ := 1
  ofNumber _ := 1
  placeholders _ := ""

/-- Local variables of which none holds a value without steps. -/
def IsCounted (ls : Locals Nat) : Prop := ∀ entry ∈ ls, entry.2 ≠ .value 0

section Counted

variable {arguments : String → Nat} {ls ls' : Locals Nat} {name : String}

theorem IsCounted.cons {d : Datum Nat} (h : IsCounted ls) (hd : d ≠ .value 0) :
    IsCounted ((name, d) :: ls) := by
  intro entry hentry
  rcases List.mem_cons.1 hentry with rfl | hentry
  · exact hd
  · exact h entry hentry

theorem IsCounted.assign {d : Datum Nat} (h : IsCounted ls) (hd : d ≠ .value 0) :
    IsCounted (ls.assign name d) := by
  induction ls with
  | nil => exact h
  | cons entry ls ih =>
    have htail : IsCounted ls := fun e he => h e (List.mem_cons_of_mem _ he)
    rw [Locals.assign]
    split
    · exact htail.cons hd
    · exact (ih htail).cons (h entry List.mem_cons_self)

theorem IsCounted.shade (h : IsCounted ls) (hidden : List String) : IsCounted (ls.shade hidden) := by
  induction hidden with
  | nil => exact h
  | cons n hidden ih => exact ih.cons (by simp)

theorem IsCounted.leave {outer : Locals Nat} (h : IsCounted ls) : IsCounted (outer.leave ls) :=
  fun entry hentry => h entry (List.mem_of_mem_drop hentry)

theorem apply_ne_zero (step : Conversion) (v : Nat) : step.apply counting v ≠ 0 := by
  cases step <;> simp [Conversion.apply, counting]

theorem eval_ne_zero {e : Expr} {d : Datum Nat} (h : e.eval counting arguments ls = some d) :
    d ≠ .value 0 := by
  rintro rfl
  cases e with
  | convert step x =>
    obtain ⟨v, -, hv⟩ := Option.map_eq_some_iff.1 h
    exact apply_ne_zero step v (Datum.value.inj hv)
  | absent => cases h
  | acquire borrowed sql count =>
    obtain ⟨t, -, h⟩ := Option.bind_eq_some_iff.1 h
    obtain ⟨n, -, h⟩ := Option.bind_eq_some_iff.1 h
    cases h
  | literal | emptyText | take | length | sum | compile | shared => simp [Expr.eval] at h

theorem IsCounted.exec_instr {i : Instr} (h : IsCounted ls)
    (hexec : i.exec counting arguments ls = some ls') : IsCounted ls' := by
  cases i with
  | define keyword name type value =>
    obtain ⟨d, hd, rfl⟩ := Option.map_eq_some_iff.1 hexec
    exact h.cons (eval_ne_zero hd)
  | declare name type =>
    cases hexec
    exact h.cons (by simp)
  | assign name value =>
    obtain ⟨d, hd, rfl⟩ := Option.map_eq_some_iff.1 hexec
    exact h.assign (eval_ne_zero hd)
  | pushText builder text =>
    obtain ⟨t, -, rfl⟩ := Option.map_eq_some_iff.1 hexec
    exact h.assign (by simp)
  | pushPlaceholders builder size =>
    simp only [Instr.exec, Option.bind_eq_bind, Option.bind_eq_some_iff, Option.pure_def,
      Option.some.injEq] at hexec
    obtain ⟨t, -, n, -, rfl⟩ := hexec
    exact h.assign (by simp)
  | bind statement index kind borrowed x =>
    simp only [Instr.exec, Option.bind_eq_bind, Option.bind_eq_some_iff, Option.pure_def,
      Option.some.injEq] at hexec
    obtain ⟨s, -, i, -, v, -, rfl⟩ := hexec
    exact h.assign (by simp)
  | bindNull statement index =>
    simp only [Instr.exec, Option.bind_eq_bind, Option.bind_eq_some_iff, Option.pure_def,
      Option.some.injEq] at hexec
    obtain ⟨s, -, i, -, rfl⟩ := hexec
    exact h.assign (by simp)
  | advance counter =>
    obtain ⟨n, -, rfl⟩ := Option.map_eq_some_iff.1 hexec
    exact h.assign (by simp)

theorem IsCounted.exec {p : Program} (h : IsCounted ls)
    (hexec : p.exec counting arguments ls = some ls') : IsCounted ls' := by
  induction p generalizing ls ls' with
  | done =>
    cases hexec
    exact h
  | step i rest ih =>
    obtain ⟨ls₁, h₁, hexec⟩ := Option.bind_eq_some_iff.1 hexec
    exact ih (h.exec_instr h₁) hexec
  | each item x body rest hbody ih =>
    obtain ⟨v, -, hexec⟩ := Option.bind_eq_some_iff.1 hexec
    obtain ⟨ls₁, h₁, hexec⟩ := Option.bind_eq_some_iff.1 hexec
    refine ih (foldlM_induct (P := IsCounted) (fun l w l' hl hw => ?_) h h₁) hexec
    obtain ⟨inner, hinner, rfl⟩ := Option.map_eq_some_iff.1 hw
    exact (hbody (hl.cons (by simp [counting])) hinner).leave
  | select x absent present found rest ih =>
    obtain ⟨v, -, hexec⟩ := Option.bind_eq_some_iff.1 hexec
    split at hexec
    · obtain ⟨inner, hinner, hexec⟩ := Option.bind_eq_some_iff.1 hexec
      exact ih (h.exec_instr hinner).leave hexec
    · rename_i w hw
      obtain rfl : v + 1 = w := Option.some.inj hw
      obtain ⟨inner, hinner, hexec⟩ := Option.bind_eq_some_iff.1 hexec
      exact ih ((h.cons (by simp)).exec_instr hinner).leave hexec
  | inspect x absent present body rest hbody ih =>
    obtain ⟨v, -, hexec⟩ := Option.bind_eq_some_iff.1 hexec
    split at hexec
    · obtain ⟨inner, hinner, hexec⟩ := Option.bind_eq_some_iff.1 hexec
      exact ih (h.exec_instr hinner).leave hexec
    · rename_i w hw
      obtain rfl : v + 1 = w := Option.some.inj hw
      obtain ⟨inner, hinner, hexec⟩ := Option.bind_eq_some_iff.1 hexec
      exact ih (hbody (h.cons (by simp)) hinner).leave hexec

/-- Only a parameter that no local variable hides is read as zero. -/
theorem IsCounted.not_mem_of_read (h : IsCounted ls)
    (hread : ls.read counting arguments name = some 0) : name ∉ ls.names := by
  intro hmem
  cases hlookup : ls.lookup name with
  | none => exact absurd hmem (Locals.lookup_eq_none.1 hlookup)
  | some d =>
    obtain ⟨front, back, rfl, -⟩ := List.lookup_eq_some_iff.1 hlookup
    have hne : d ≠ .value 0 := h (name, d) (by simp)
    rw [Locals.read, hlookup] at hread
    cases d with
    | value v => exact hne (congrArg Datum.value (Option.some.inj hread))
    | pending | statement => cases hread
    | text | number => cases hread

end Counted

/-- A converter takes the same number of steps from every value. -/
theorem exists_apply_counting (c : Converter) : ∃ n, ∀ v, c.apply counting v = v + n := by
  induction c with
  | identity | boolToInt | intToBool => exact ⟨1, fun _ => rfl⟩
  | custom => exact ⟨2, fun _ => rfl⟩
  | optionBoolToInt | optionIntToBool => exact ⟨3, fun _ => rfl⟩
  | nullSafe inner ih =>
    obtain ⟨n, hn⟩ := ih
    refine ⟨n + 2, fun v => ?_⟩
    have hinner : (Converter.nullSafe inner).apply counting v = inner.apply counting (v + 1) + 1 := rfl
    rw [hinner, hn]
    omega
  | chain first second hfirst hsecond =>
    obtain ⟨m, hm⟩ := hfirst
    obtain ⟨n, hn⟩ := hsecond
    refine ⟨m + n, fun v => ?_⟩
    rw [Converter.apply, hm, hn]
    omega

theorem cell_counting_inj {b : ValueBinder} {v w : Nat}
    (h : b.cell counting v = b.cell counting w) : v = w := by
  obtain ⟨type, column, converter⟩ := b
  have hcolumn : ∀ {v w : Nat}, column.cell counting v = column.cell counting w → v = w := by
    intro v w h
    unfold ColumnType.cell at h
    split at h
    · have hvalue : v + 1 = w + 1 := (Cell.value.inj h).2
      omega
    · exact (Cell.value.inj h).2
  have h := hcolumn h
  cases converter with
  | none => exact h
  | some c =>
    obtain ⟨n, hn⟩ := exists_apply_counting c
    have h : c.apply counting v = c.apply counting w := h
    rw [hn, hn] at h
    omega

/-- Every argument has one cell, which tells the values apart. -/
theorem exists_cells_counting (a : Argument) :
    ∃ f : Nat → Cell Nat, f.Injective ∧ ∀ v, a.cells counting v = [f v] := by
  cases a with
  | value b => exact ⟨_, fun v w h => cell_counting_inj h, fun v => rfl⟩
  | collection b =>
    refine ⟨fun v => b.cell counting (v + 1), fun v w h => ?_, fun v => rfl⟩
    have hvalue : v + 1 = w + 1 := cell_counting_inj h
    omega

section All

variable {counter? : Option String} {stmt : String} {k : Nat} {as : List (String × Argument)}
  {p : Program}

/-- What was bound stays bound. -/
theorem BindsAll.binds_prefix (h : BindsAll counter? stmt k as p) {V : Type} {rt : Runtime V}
    {arguments : String → V} {ls ls' : Locals V} {s : Prepared V} {i : Nat}
    (hs : ls.lookup stmt = some (.statement s)) (hi : Stands counter? k ls i)
    (hexec : p.exec rt arguments ls = some ls') :
    ∃ s', ls'.lookup stmt = some (.statement s') ∧ s.binds <+: s'.binds := by
  induction as generalizing k p ls s i with
  | nil =>
    cases h
    cases hexec
    exact ⟨s, hs, List.prefix_rfl⟩
  | cons entry as ih =>
    obtain ⟨x, a⟩ := entry
    obtain ⟨hidden, q, r, rfl, hbinds, hrest⟩ := h
    obtain ⟨v, ls₁, -, -, hexec, hs₁, hi₁⟩ := hbinds.of_exec_append hs hi hexec
    obtain ⟨s', hs', hprefix⟩ := ih hrest hs₁ hi₁ hexec
    exact ⟨s', hs', (List.prefix_append _ _).trans hprefix⟩

/-- If what is bound are the values of the parameters, none of them is hidden. -/
theorem BindsAll.unshadowed (h : BindsAll counter? stmt k as p) {ls ls' : Locals Nat}
    {s s' : Prepared Nat} {i : Nat} (hls : IsCounted ls)
    (hs : ls.lookup stmt = some (.statement s)) (hi : Stands counter? k ls i)
    (hexec : p.exec counting (fun _ => 0) ls = some ls')
    (hs' : ls'.lookup stmt = some (.statement s'))
    (hbinds : s'.binds = s.binds ++ (cellsOf counting (fun _ => 0) as).zipIdx i) :
    p.unshadowed ls.names := by
  induction as generalizing k p ls s i with
  | nil =>
    cases h
    rfl
  | cons entry as ih =>
    obtain ⟨x, a⟩ := entry
    obtain ⟨hidden, q, r, rfl, hq, hr⟩ := h
    obtain ⟨v, ls₁, hread, hexec₁, hexec, hs₁, hi₁⟩ := hq.of_exec_append hs hi hexec
    obtain ⟨s'', hs'', more, hmore⟩ := hr.binds_prefix hs₁ hi₁ hexec
    obtain rfl : s'' = s' := Datum.statement.inj (Option.some.inj (hs''.symm.trans hs'))
    obtain ⟨f, hf, hcells⟩ := exists_cells_counting a
    have hcons : cellsOf counting (fun _ => 0) ((x, a) :: as) =
        f 0 :: cellsOf counting (fun _ => 0) as := by
      change a.cells counting 0 ++ _ = _
      rw [hcells]
      rfl
    rw [hcells, List.length_singleton] at hi₁
    rw [hcells] at hmore hs₁
    rw [hcons] at hbinds
    have hsplit : (f v, i) :: more =
        (f 0, i) :: (cellsOf counting (fun _ => 0) as).zipIdx (i + 1) := by
      have heq := hmore.trans hbinds
      rw [Prepared.bindAll, List.append_assoc] at heq
      exact List.append_cancel_left heq
    obtain ⟨hcell, rfl⟩ := List.cons.inj hsplit
    obtain rfl : v = 0 := hf (congrArg Prod.fst hcell)
    rw [Program.unshadowed_append, hq.unshadowed_eq, ← Program.names_exec hexec₁,
      ih hr (hls.exec hexec₁) hs₁ hi₁ hexec hmore.symm, Bool.and_true]
    have hmem := (hls.shade hidden).not_mem_of_read hread
    rw [Locals.names_shade] at hmem
    simpa [Var.isClear] using hmem

end All

end DataAccess.Convert
