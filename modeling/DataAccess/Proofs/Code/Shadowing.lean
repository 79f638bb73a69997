import DataAccess.Proofs.Code.Program

/-!
The local variables of a program and what hides a parameter: a local variable of its name that is in
scope where the parameter is read.
-/

set_option autoImplicit false

namespace DataAccess.Code

/-- Whether a variable is not a parameter that one of the visible names hides. -/
def Var.isClear (visible : List String) : Var → Bool
  | parameter name => !visible.contains name
  | temporary _ => true

def Expr.isClear (visible : List String) : Expr → Bool
  | length x | convert _ x => x.isClear visible
  | _ => true

namespace Instr

def declares : Instr → List String
  | define _ name _ _ | declare name _ => [name]
  | _ => []

def isClear (visible : List String) : Instr → Bool
  | define _ _ _ value | assign _ value => value.isClear visible
  | bind _ _ _ _ x => x.isClear visible
  | _ => true

end Instr

namespace Program

/-- The local variables that are visible behind a program, the last one first. -/
def declares : Program → List String
  | done => []
  | step i rest => rest.declares ++ i.declares
  | each _ _ _ rest | select _ _ _ _ rest | inspect _ _ _ _ rest => rest.declares

/-- All local variables of a program, those of its blocks included. -/
def locals : Program → List String
  | done => []
  | step i rest => i.declares ++ rest.locals
  | each item _ body rest => item :: (body.locals ++ rest.locals)
  | select _ _ present _ rest => present :: rest.locals
  | inspect _ _ present body rest => present :: (body.locals ++ rest.locals)

/-- Whether no parameter is read where a local variable has its name. -/
def unshadowed (visible : List String) : Program → Bool
  | done => true
  | step i rest => i.isClear visible && rest.unshadowed (i.declares ++ visible)
  | each item x body rest =>
    x.isClear visible && body.unshadowed (item :: visible) && rest.unshadowed visible
  | select x absent present found rest =>
    x.isClear visible && absent.isClear visible && found.isClear (present :: visible) &&
      rest.unshadowed visible
  | inspect x absent present body rest =>
    x.isClear visible && absent.isClear visible && body.unshadowed (present :: visible) &&
      rest.unshadowed visible

variable {visible : List String} {p q : Program}

theorem declares_append : (p.append q).declares = q.declares ++ p.declares := by
  induction p with
  | done => simp [append, declares]
  | step i rest ih => simp [append, declares, ih]
  | each item x body rest _ ih => simpa [append, declares] using ih
  | select x absent present found rest ih => simpa [append, declares] using ih
  | inspect x absent present body rest _ ih => simpa [append, declares] using ih

theorem locals_append : (p.append q).locals = p.locals ++ q.locals := by
  induction p with
  | done => rfl
  | step i rest ih => simp [append, locals, ih]
  | each item x body rest _ ih => simp [append, locals, ih]
  | select x absent present found rest ih => simp [append, locals, ih]
  | inspect x absent present body rest _ ih => simp [append, locals, ih]

theorem unshadowed_append : (p.append q).unshadowed visible =
    (p.unshadowed visible && q.unshadowed (p.declares ++ visible)) := by
  induction p generalizing visible with
  | done => simp [append, unshadowed, declares]
  | step i rest ih => simp [append, unshadowed, declares, ih, Bool.and_assoc]
  | each item x body rest _ ih => simp [append, unshadowed, declares, ih, Bool.and_assoc]
  | select x absent present found rest ih =>
    simp [append, unshadowed, declares, ih, Bool.and_assoc]
  | inspect x absent present body rest _ ih =>
    simp [append, unshadowed, declares, ih, Bool.and_assoc]

theorem mem_locals_of_mem_declares {n : String} (h : n ∈ p.declares) : n ∈ p.locals := by
  induction p with
  | done => cases h
  | step i rest ih =>
    rcases List.mem_append.1 h with h | h
    · exact List.mem_append_right _ (ih h)
    · exact List.mem_append_left _ h
  | each item x body rest _ ih => exact List.mem_cons_of_mem _ (List.mem_append_right _ (ih h))
  | select x absent present found rest ih => exact List.mem_cons_of_mem _ (ih h)
  | inspect x absent present body rest _ ih =>
    exact List.mem_cons_of_mem _ (List.mem_append_right _ (ih h))

end Program

namespace Locals

variable {V : Type} {name other : String} {d : Datum V} {ls inner : Locals V}

theorem names_cons : names ((name, d) :: ls) = name :: names ls := rfl

theorem lookup_cons_ne (h : other ≠ name) :
    ((name, d) :: ls : Locals V).lookup other = ls.lookup other := by
  have hbeq : (other == name) = false := by simpa using h
  simp [List.lookup_cons, hbeq]

theorem lookup_eq_none : ls.lookup name = none ↔ name ∉ ls.names := by
  simp only [List.lookup_eq_none_iff, names, List.mem_map, not_exists, not_and]
  exact ⟨fun h entry hentry he => by simpa [he] using h entry hentry,
    fun h entry hentry => by simpa using Ne.symm (h entry hentry)⟩

theorem names_assign : (assign name d ls).names = ls.names := by
  induction ls with
  | nil => rfl
  | cons entry ls ih =>
    obtain ⟨n, e⟩ := entry
    by_cases h : n = name
    · rw [assign, if_pos h, names_cons, names_cons]
    · rw [assign, if_neg h, names_cons, names_cons, ih]

theorem lookup_assign_self (h : name ∈ ls.names) : (assign name d ls).lookup name = some d := by
  induction ls with
  | nil => cases h
  | cons entry ls ih =>
    obtain ⟨n, e⟩ := entry
    by_cases hn : n = name
    · subst hn
      simp [assign]
    · have hmem : name ∈ names ls := (List.mem_cons.1 h).resolve_left (Ne.symm hn)
      rw [assign, if_neg hn, lookup_cons_ne (Ne.symm hn), ih hmem]

theorem lookup_assign_ne (h : other ≠ name) :
    (assign name d ls).lookup other = ls.lookup other := by
  induction ls with
  | nil => rfl
  | cons entry ls ih =>
    obtain ⟨n, e⟩ := entry
    by_cases hn : n = name
    · subst hn
      rw [assign, if_pos rfl, lookup_cons_ne h, lookup_cons_ne h]
    · rw [assign, if_neg hn]
      by_cases ho : other = n
      · subst ho
        rw [List.lookup_cons_self, List.lookup_cons_self]
      · rw [lookup_cons_ne ho, lookup_cons_ne ho, ih]

theorem names_leave {new : List String} (h : inner.names = new ++ ls.names) :
    (ls.leave inner).names = ls.names := by
  have hlength : inner.length = new.length + ls.length := by
    simpa [names] using congrArg List.length h
  have hdrop : inner.length - ls.length = new.length := by omega
  rw [leave, hdrop, names, List.map_drop]
  rw [names] at h
  rw [h, List.drop_left]

/-- Behind a block everything is found as at its end, its own variables apart. -/
theorem lookup_leave {new : List String} (h : inner.names = new ++ ls.names) (hn : name ∉ new) :
    (ls.leave inner).lookup name = inner.lookup name := by
  have hlength : inner.length = new.length + ls.length := by
    simpa [names] using congrArg List.length h
  have hdrop : inner.length - ls.length = new.length := by omega
  rw [leave, hdrop]
  clear hdrop hlength
  induction new generalizing inner with
  | nil => rfl
  | cons m new ih =>
    cases inner with
    | nil => cases h
    | cons entry inner =>
      obtain ⟨n, e⟩ := entry
      obtain ⟨rfl, htail⟩ := List.cons.inj h
      have hne : name ≠ n := fun he => hn (he ▸ List.mem_cons_self)
      rw [lookup_cons_ne hne]
      exact ih htail fun hmem => hn (List.mem_cons_of_mem _ hmem)

end Locals

section Meaning

variable {V : Type} {rt : Runtime V} {arguments : String → V} {p q : Program} {ls ls' : Locals V}

theorem Program.exec_step {i : Instr} (h : i.exec rt arguments ls = some ls') :
    (step i p).exec rt arguments ls = p.exec rt arguments ls' := by
  rw [exec, h]
  rfl

theorem Program.exec_append :
    (p.append q).exec rt arguments ls = (p.exec rt arguments ls).bind (q.exec rt arguments) := by
  induction p generalizing ls with
  | done => rfl
  | step i rest ih =>
    simp only [append, exec, ih, Option.bind_eq_bind, Option.bind_assoc]
  | each item x body rest _ ih =>
    simp only [append, exec, ih, Option.bind_eq_bind, Option.bind_assoc]
  | select x absent present found rest ih =>
    simp only [append, exec, ih, Option.bind_eq_bind, Option.bind_assoc]
    refine Option.bind_congr fun v _ => ?_
    split <;> rw [Option.bind_assoc]
  | inspect x absent present body rest _ ih =>
    simp only [append, exec, ih, Option.bind_eq_bind, Option.bind_assoc]
    refine Option.bind_congr fun v _ => ?_
    split <;> rw [Option.bind_assoc]

theorem Instr.names_exec {i : Instr} (h : i.exec rt arguments ls = some ls') :
    ls'.names = i.declares ++ ls.names := by
  cases i with
  | define keyword name type value =>
    obtain ⟨d, -, rfl⟩ := Option.map_eq_some_iff.1 h
    rfl
  | declare name type =>
    cases h
    rfl
  | assign name value =>
    obtain ⟨d, -, rfl⟩ := Option.map_eq_some_iff.1 h
    exact Locals.names_assign
  | pushText builder text =>
    obtain ⟨t, -, rfl⟩ := Option.map_eq_some_iff.1 h
    exact Locals.names_assign
  | pushPlaceholders builder size =>
    simp only [exec, Option.bind_eq_bind, Option.bind_eq_some_iff, Option.pure_def,
      Option.some.injEq] at h
    obtain ⟨t, -, n, -, rfl⟩ := h
    exact Locals.names_assign
  | bind statement index kind borrowed x =>
    simp only [exec, Option.bind_eq_bind, Option.bind_eq_some_iff, Option.pure_def,
      Option.some.injEq] at h
    obtain ⟨s, -, i, -, v, -, rfl⟩ := h
    exact Locals.names_assign
  | bindNull statement index =>
    simp only [exec, Option.bind_eq_bind, Option.bind_eq_some_iff, Option.pure_def,
      Option.some.injEq] at h
    obtain ⟨s, -, i, -, rfl⟩ := h
    exact Locals.names_assign
  | advance counter =>
    obtain ⟨n, -, rfl⟩ := Option.map_eq_some_iff.1 h
    exact Locals.names_assign

/-- What holds of the variables before every round of a loop holds behind it. -/
theorem foldlM_induct {W : Type} {f : Locals V → W → Option (Locals V)} {P : Locals V → Prop}
    (hstep : ∀ ls w ls', P ls → f ls w = some ls' → P ls') {items : List W}
    (hls : P ls) (h : items.foldlM f ls = some ls') : P ls' := by
  induction items generalizing ls with
  | nil =>
    cases h
    exact hls
  | cons w items ih =>
    rw [List.foldlM_cons] at h
    obtain ⟨ls₁, h₁, h⟩ := Option.bind_eq_some_iff.1 h
    exact ih (hstep ls w ls₁ hls h₁) h

theorem Program.names_exec (h : p.exec rt arguments ls = some ls') :
    ls'.names = p.declares ++ ls.names := by
  induction p generalizing ls ls' with
  | done =>
    cases h
    rfl
  | step i rest ih =>
    obtain ⟨ls₁, h₁, h⟩ := Option.bind_eq_some_iff.1 h
    rw [ih h, Instr.names_exec h₁, declares, List.append_assoc]
  | each item x body rest hbody ih =>
    obtain ⟨v, -, h⟩ := Option.bind_eq_some_iff.1 h
    obtain ⟨ls₁, h₁, h⟩ := Option.bind_eq_some_iff.1 h
    have hloop : ls₁.names = ls.names := by
      refine foldlM_induct (P := fun l => l.names = ls.names) (fun l w l' hl hw => ?_) rfl h₁
      obtain ⟨inner, hinner, rfl⟩ := Option.map_eq_some_iff.1 hw
      have hnames : inner.names = (body.declares ++ [item]) ++ l.names := by
        rw [hbody hinner, Locals.names_cons, List.append_assoc, List.singleton_append]
      rw [Locals.names_leave hnames, hl]
    rw [ih h, hloop, declares]
  | select x absent present found rest ih =>
    obtain ⟨v, -, h⟩ := Option.bind_eq_some_iff.1 h
    rw [declares]
    split at h
    · obtain ⟨inner, hinner, h⟩ := Option.bind_eq_some_iff.1 h
      rw [ih h, Locals.names_leave (Instr.names_exec hinner)]
    · obtain ⟨inner, hinner, h⟩ := Option.bind_eq_some_iff.1 h
      have hnames : inner.names = (found.declares ++ [present]) ++ ls.names := by
        rw [Instr.names_exec hinner, Locals.names_cons, List.append_assoc, List.singleton_append]
      rw [ih h, Locals.names_leave hnames]
  | inspect x absent present body rest hbody ih =>
    obtain ⟨v, -, h⟩ := Option.bind_eq_some_iff.1 h
    rw [declares]
    split at h
    · obtain ⟨inner, hinner, h⟩ := Option.bind_eq_some_iff.1 h
      rw [ih h, Locals.names_leave (Instr.names_exec hinner)]
    · obtain ⟨inner, hinner, h⟩ := Option.bind_eq_some_iff.1 h
      have hnames : inner.names = (body.declares ++ [present]) ++ ls.names := by
        rw [hbody hinner, Locals.names_cons, List.append_assoc, List.singleton_append]
      rw [ih h, Locals.names_leave hnames]

end Meaning

end DataAccess.Code
