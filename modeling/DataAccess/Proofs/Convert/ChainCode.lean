import DataAccess.Proofs.Convert.Binding
import DataAccess.Proofs.Convert.Lifting

/-!
The code of a chain of converters. The variables between the steps are declared first, the last one
first of all, since a chain is written around the chain that it extends. Then every step reads what
the step before it assigned.
-/

set_option autoImplicit false

namespace DataAccess.Code

/-- The code of a program behind declarations of variables with their types. -/
def Program.declaring : List (String × String) → Program → Program
  | [], p => p
  | (name, type) :: rest, p => .step (.declare name type) (declaring rest p)

variable {entries : List (String × String)} {p q : Program}

theorem Program.append_declaring :
    (p.declaring entries).append q = (p.append q).declaring entries := by
  induction entries with
  | nil => rfl
  | cons x rest ih => exact congrArg (Program.step _) ih

theorem Program.locals_declaring :
    (p.declaring entries).locals = entries.map Prod.fst ++ p.locals := by
  induction entries with
  | nil => rfl
  | cons x rest ih => exact congrArg (List.cons x.1) ih

theorem Program.append_assoc (p q r : Program) : (p.append q).append r = p.append (q.append r) := by
  induction p with
  | done => rfl
  | step i rest ih => simp [append, ih]
  | each item x body rest _ ih => simp [append, ih]
  | select x absent present found rest ih => simp [append, ih]
  | inspect x absent present body rest _ ih => simp [append, ih]

/-- Between two namings some names were given, each of them for the first time and once. -/
structure Naming.Gives (t t' : Naming) (names : List String) : Prop where
  keeps : t.Extends t'
  nodup : names.Nodup
  new : ∀ n ∈ names, ¬t.Issued n
  issued : ∀ n ∈ names, t'.Issued n

namespace Naming

variable {t t' t'' : Naming} {names names' : List String}

theorem Gives.of_extends (h : t.Extends t') : t.Gives t' [] := ⟨h, List.nodup_nil, nofun, nofun⟩

theorem Gives.refl (t : Naming) : t.Gives t [] := .of_extends fun _ hn => hn

theorem gives_fresh {wish : String} (hw : wish ∈ preparationWishes) (t : Naming) :
    t.Gives (Draft.fresh wish t).naming [(Draft.fresh wish t).value] where
  keeps := extends_fresh wish t
  nodup := List.nodup_singleton _
  new _ hn := List.mem_singleton.1 hn ▸ not_issued_fresh hw t
  issued _ hn := List.mem_singleton.1 hn ▸ issued_fresh hw t

theorem Gives.append (h : t.Gives t' names) (h' : t'.Gives t'' names') :
    t.Gives t'' (names ++ names') where
  keeps n hn := h'.keeps n (h.keeps n hn)
  nodup := List.nodup_append.2 ⟨h.nodup, h'.nodup, fun n hn n' hn' he =>
    h'.new n' hn' (he ▸ h.issued n hn)⟩
  new n hn := (List.mem_append.1 hn).elim (h.new n) fun hn ht => h'.new n hn (h.keeps n ht)
  issued n hn := (List.mem_append.1 hn).elim (fun hn => h'.keeps n (h.issued n hn)) (h'.issued n)

end Naming

end DataAccess.Code

namespace DataAccess.Convert

open Code

/-- A sequence of steps from one type to another. -/
def Leads : TypeExpr → List Converter → TypeExpr → Prop
  | t, [], u => t = u
  | t, e :: es, u => e.source = t ∧ Leads e.target es u

theorem Leads.concat {t u : TypeExpr} {es : List Converter} {e : Converter} (h : Leads t es u)
    (he : e.source = u) : Leads t (es ++ [e]) e.target := by
  induction es generalizing t with
  | nil =>
    obtain rfl : t = u := h
    exact ⟨he, rfl⟩
  | cons e' es ih => exact ⟨h.1, ih h.2⟩

/-- The code of a single step from a variable to another one. A lifted step assigns that there is
nothing or unpacks the value, takes the inner step and packs the result. -/
inductive StepCode : Converter → Var → String → Program → Prop where
  | boolToInt {x : Var} {output : String} :
    StepCode .boolToInt x output (.step (.assign output (.convert .toInt x)) .done)
  | intToBool {x : Var} {output : String} :
    StepCode .intToBool x output (.step (.assign output (.convert .toBool x)) .done)
  | optionBoolToInt {x : Var} {output : String} :
    StepCode .optionBoolToInt x output (.step (.assign output (.convert .optionToInt x)) .done)
  | optionIntToBool {x : Var} {output : String} :
    StepCode .optionIntToBool x output (.step (.assign output (.convert .optionToBool x)) .done)
  | custom {m : Schema.CustomConverter} {x : Var} {output : String} (sc : Scope) :
    StepCode (.custom m) x output
      (.step (.assign output (.convert (.call m (Converter.callee m sc).1) x)) .done)
  | nullSafe {inner : Converter} {x : Var} {output value converted : String} {p : Program}
    (h : StepCode inner (.temporary value) converted p) :
    StepCode (.nullSafe inner) x output
      (.inspect x (.assign output .absent) value
        (.step (.declare converted inner.target.display)
          (p.append (.step (.assign output (.convert .wrap (.temporary converted))) .done))) .done)

/-- The code of steps in order, from a variable through those between the steps to an output. -/
inductive ChainCode (output : String) :
    List Converter → Var → (middles : List String) → Program → Prop where
  | last {e : Converter} {x : Var} {p : Program} (h : StepCode e x output p) :
    ChainCode output [e] x [] p
  | step {e : Converter} {es : List Converter} {x : Var} {middle : String} {middles : List String}
    {p q : Program} (h : StepCode e x middle p)
    (hrest : ChainCode output es (.temporary middle) middles q) :
    ChainCode output (e :: es) x (middle :: middles) (p.append q)

namespace ChainCode

variable {output middle : String} {es : List Converter} {e : Converter} {x : Var}
  {middles : List String} {p q : Program}

theorem length_eq (h : ChainCode output es x middles p) : middles.length + 1 = es.length := by
  induction h with
  | last => rfl
  | step h hrest ih => simp [ih]

/-- What assigned the output can be read by one more step. -/
theorem concat (h : ChainCode middle es x middles p)
    (hlast : StepCode e (.temporary middle) output q) :
    ChainCode output (es ++ [e]) x (middles ++ [middle]) (p.append q) := by
  induction h with
  | last h => exact .step h (.last hlast)
  | step h hrest ih =>
    rw [Program.append_assoc]
    exact .step h ih

end ChainCode

namespace Converter

/-- The variables that are declared for a sequence of steps, each with the type that its step
produces, the last one first. -/
def declared (middles : List String) (es : List Converter) : List (String × String) :=
  (middles.zip (es.map fun e => e.target.display)).reverse

theorem declared_concat {middles : List String} {middle : String} {es : List Converter}
    {e last : Converter} (h : middles.length = es.length) :
    declared (middles ++ [middle]) (es ++ [last, e]) =
      (middle, last.target.display) :: declared middles (es ++ [last]) := by
  have hzip : ∀ more : List String,
      middles.zip (es.map (fun e => e.target.display) ++ more) =
        middles.zip (es.map fun e => e.target.display) := fun more => by
    rw [← List.append_nil middles, List.zip_append (by simpa using h)]
    simp
  rw [declared, declared, List.map_append, List.map_append, hzip, List.zip_append (by simpa using h)]
  simp

theorem map_fst_declared {middles : List String} {es : List Converter}
    (h : middles.length ≤ es.length) : (declared middles es).map Prod.fst = middles.reverse := by
  rw [declared, List.map_reverse, List.map_fst_zip (by simpa using h)]

theorem stepCode_custom (m : Schema.CustomConverter) (x : Var) (output : String) (t : Naming) :
    StepCode (.custom m) x output ((custom m).draft x output t).program := by
  have hprogram : ((custom m).draft x output t).program =
      (draftCallee m t).program.append
        (.step (.assign output (.convert (.call m (draftCallee m t).value) x)) .done) := rfl
  have hcallee := congrFun (realize_draftCallee m)
    { members := t.members, locals := t.locals, receiver := t.receiver }
  rw [hprogram, program_draftCallee, show (draftCallee m t).value = _ from congrArg Prod.fst hcallee]
  exact .custom _

theorem stepCode_draft {s : Store} {e : Converter} (he : e ∈ s.edges) (x : Var) (output : String)
    (t : Naming) : StepCode e x output (e.draft x output t).program := by
  rcases s.edges_cases he with ⟨m, -, rfl | rfl⟩ | he
  · exact stepCode_custom m x output t
  · exact .nullSafe (stepCode_custom m _ _ _)
  · simp only [List.mem_cons, List.not_mem_nil, or_false] at he
    rcases he with rfl | rfl | rfl | rfl
    · exact .boolToInt
    · exact .intToBool
    · exact .optionBoolToInt
    · exact .optionIntToBool

theorem steps_of_mem_edges {s : Store} : ∀ e ∈ s.edges, e.steps = [e] := by
  intro e he
  rcases s.edges_cases he with ⟨m, -, rfl | rfl⟩ | he
  · rfl
  · rfl
  · simp only [List.mem_cons, List.not_mem_nil, or_false] at he
    rcases he with rfl | rfl | rfl | rfl <;> rfl

section Chain

variable {s : Store} {sources : List TypeExpr} {p : List (Fin s.edges.length)} {c : Converter}

theorem exists_last_step (h : ChainAt s.edges sources p c) :
    ∃ es last, c.steps = es ++ [last] ∧ last.target = c.target := by
  cases h with
  | @start i _ => exact ⟨[], s.edges[i], steps_of_mem_edges _ (List.getElem_mem i.isLt), rfl⟩
  | @step _ c i _ _ =>
    have hmem : s.edges[i] ∈ s.edges := List.getElem_mem i.isLt
    refine ⟨c.steps, s.edges[i], ?_, rfl⟩
    rw [steps, steps_of_mem_edges _ hmem]

theorem leads_of_chainAt {t : TypeExpr} (h : ChainAt s.edges sources p c) (ht : c.source = t) :
    Leads t c.steps c.target := by
  induction h with
  | @start i _ =>
    have hmem : s.edges[i] ∈ s.edges := List.getElem_mem i.isLt
    rw [steps_of_mem_edges _ hmem]
    exact ⟨ht, rfl⟩
  | @step _ c i _ hjoin ih =>
    have hmem : s.edges[i] ∈ s.edges := List.getElem_mem i.isLt
    rw [steps, steps_of_mem_edges _ hmem]
    exact (ih ht).concat hjoin

theorem length_steps (h : ChainAt s.edges sources p c) : c.steps.length = c.hops := by
  induction h with
  | @start i _ =>
    have hmem : s.edges[i] ∈ s.edges := List.getElem_mem i.isLt
    rw [steps_of_mem_edges _ hmem, s.hops_of_mem_edges _ hmem]
    rfl
  | @step _ c i _ _ ih =>
    have hmem : s.edges[i] ∈ s.edges := List.getElem_mem i.isLt
    rw [steps, hops, List.length_append, ih, steps_of_mem_edges _ hmem, s.hops_of_mem_edges _ hmem]
    rfl

/-- The induction is on the chain, which is extended at its end. -/
theorem chainCode_draft (h : ChainAt s.edges sources p c) (x : Var) (output : String)
    (t : Naming) : ∃ middles q, ChainCode output c.steps x middles q ∧
      (c.draft x output t).program = q.declaring (declared middles c.steps) := by
  induction h generalizing output t with
  | @start i _ =>
    have hmem : s.edges[i] ∈ s.edges := List.getElem_mem i.isLt
    rw [steps_of_mem_edges _ hmem]
    exact ⟨[], _, .last (stepCode_draft hmem x output t), rfl⟩
  | @step p c i hc _ ih =>
    have hmem : s.edges[i] ∈ s.edges := List.getElem_mem i.isLt
    let middle := (Draft.fresh "tmp" t).value
    let t₁ := (Draft.fresh "tmp" t).naming
    let t₂ := (c.draft x middle t₁).naming
    obtain ⟨middles, q, hcode, hprogram⟩ := ih middle t₁
    obtain ⟨es, last, hsteps, htarget⟩ := exists_last_step hc
    have hlength : middles.length = es.length := by
      have hlength := hcode.length_eq
      rw [hsteps] at hlength
      simpa using hlength
    have hlast := stepCode_draft hmem (.temporary middle) output t₂
    refine ⟨middles ++ [middle], q.append (s.edges[i].draft (.temporary middle) output t₂).program,
      ?_, ?_⟩
    · rw [steps, steps_of_mem_edges _ hmem]
      exact hcode.concat hlast
    · have hchain : ((c.chain s.edges[i]).draft x output t).program =
          .step (.declare middle c.target.display) ((c.draft x middle t₁).program.append
            (s.edges[i].draft (.temporary middle) output t₂).program) := rfl
      rw [hchain, hprogram, Program.append_declaring, steps, steps_of_mem_edges _ hmem, hsteps,
        List.append_assoc, List.singleton_append, declared_concat hlength, htarget]
      rfl

end Chain

/-- The local variables of the code of a converter are new and different from each other. -/
theorem gives_draft (c : Converter) (x : Var) (output : String) (t : Naming) :
    t.Gives (c.draft x output t).naming (c.draft x output t).program.locals := by
  induction c generalizing x output t with
  | identity | boolToInt | intToBool | optionBoolToInt | optionIntToBool => exact .refl t
  | custom m =>
    have hlocals : ((custom m).draft x output t).program.locals =
        (draftCallee m t).program.locals ++ [] := Program.locals_append
    rw [hlocals, program_draftCallee]
    exact .of_extends (extends_draft (custom m) x output t)
  | nullSafe inner ih =>
    let t₁ := (Draft.fresh "value" t).naming
    let t₂ := (Draft.fresh "converted" t₁).naming
    let value := (Draft.fresh "value" t).value
    let converted := (Draft.fresh "converted" t₁).value
    have hgives := (Naming.gives_fresh (by decide : "value" ∈ preparationWishes) t).append
      ((Naming.gives_fresh (by decide : "converted" ∈ preparationWishes) t₁).append
        (ih (.temporary value) converted t₂))
    have hlocals : ((nullSafe inner).draft x output t).program.locals =
        [value] ++ ([converted] ++
          (inner.draft (.temporary value) converted t₂).program.locals) := by
      change value :: ((converted :: Program.locals (Program.append _ (.step _ .done))) ++ []) = _
      rw [List.append_nil, Program.locals_append]
      exact congrArg (fun ns => value :: converted :: ns) (List.append_nil _)
    rw [hlocals]
    exact ⟨hgives.keeps, hgives.nodup, hgives.new, hgives.issued⟩
  | chain first second hfirst hsecond =>
    let t₁ := (Draft.fresh "tmp" t).naming
    let middle := (Draft.fresh "tmp" t).value
    let t₂ := (first.draft x middle t₁).naming
    have hgives := (Naming.gives_fresh (by decide : "tmp" ∈ preparationWishes) t).append
      ((hfirst x middle t₁).append (hsecond (.temporary middle) output t₂))
    have hprogram : ((chain first second).draft x output t).program =
        .step (.declare middle first.target.display) ((first.draft x middle t₁).program.append
          (second.draft (.temporary middle) output t₂).program) := rfl
    rw [hprogram, Program.locals, Program.locals_append]
    exact hgives

end Converter

section Meaning

variable {V : Type} {rt : Runtime V} {arguments : String → V}

/-- A program puts a value into a variable. It changes other variables only if they are named. -/
def Puts (rt : Runtime V) (arguments : String → V) (p : Program) (ls : Locals V) (output : String)
    (v : V) (changed : List String) : Prop :=
  ∃ ls', p.exec rt arguments ls = some ls' ∧ ls'.lookup output = some (.value v) ∧
    ∀ n, n ∉ changed → n ≠ output → ls'.lookup n = ls.lookup n

variable {e : Converter} {es : List Converter} {x : Var} {output : String} {middles : List String}
  {p : Program} {ls : Locals V} {v : V}

theorem StepCode.reads (h : StepCode e x output p) (hnodup : p.locals.Nodup)
    (houtput : output ∉ p.locals) :
    Reads x [] output (.value fun _ rt v => e.apply rt v) p := by
  induction h with
  | boolToInt | intToBool | optionBoolToInt | optionIntToBool | custom =>
    exact Reads.assign fun _ _ _ => rfl
  | @nullSafe inner x output value converted p _ ih =>
    simp only [Program.locals, Program.locals_append, Instr.declares, List.append_nil,
      List.singleton_append, List.nodup_cons, List.mem_cons, not_or] at hnodup houtput
    exact (ih hnodup.2.2 hnodup.2.1).inspect hnodup.1.2 hnodup.1.1 houtput.2.2 houtput.2.1 houtput.1

theorem StepCode.puts (h : StepCode e x output p) (hnodup : p.locals.Nodup)
    (houtput : output ∉ p.locals) (hread : ls.read rt arguments x.name = some v)
    (hdeclared : (ls.lookup output).isSome) :
    Puts rt arguments p ls output (e.apply rt v) p.locals := by
  obtain ⟨d, hd⟩ := Option.isSome_iff_exists.1 hdeclared
  exact (h.reads hnodup houtput).runs hread hd rfl

/-- Each step puts its value where the next one reads it, and leaves alone the variables that are not
assigned yet. -/
theorem ChainCode.puts (h : ChainCode output es x middles p) (hnodup : (middles ++ p.locals).Nodup)
    (houtput : output ∉ middles ++ p.locals) (hread : ls.read rt arguments x.name = some v)
    (hdeclared : ∀ n ∈ output :: middles, (ls.lookup n).isSome) :
    Puts rt arguments p ls output (es.foldl (fun w e => e.apply rt w) v) (middles ++ p.locals) := by
  induction h generalizing ls v with
  | last h => exact h.puts hnodup houtput hread (hdeclared _ List.mem_cons_self)
  | @step e es x middle middles p q h hrest ih =>
    rw [Program.locals_append, List.cons_append] at hnodup houtput
    obtain ⟨hmiddle, hnodup⟩ := List.nodup_cons.1 hnodup
    simp only [List.mem_append, List.mem_cons, not_or] at hmiddle houtput
    obtain ⟨hne, houtput⟩ := houtput
    have hrests : ∀ n ∈ middles, n ∉ p.locals := fun n hn hp =>
      (List.nodup_append.1 hnodup).2.2 n hn n (List.mem_append_left _ hp) rfl
    have hsublist : (middles ++ q.locals).Sublist (middles ++ (p.locals ++ q.locals)) :=
      (List.Sublist.refl _).append (List.sublist_append_right _ _)
    obtain ⟨ls₁, hexec₁, hvalue, hframe⟩ := h.puts
      (((List.sublist_append_left _ _).trans (List.sublist_append_right _ _)).nodup hnodup)
      hmiddle.2.1 hread (hdeclared middle (by simp))
    have hdeclared₁ : ∀ n ∈ output :: middles, (ls₁.lookup n).isSome := by
      intro n hn
      rcases List.mem_cons.1 hn with rfl | hmem
      · rw [hframe n houtput.2.1 hne]
        exact hdeclared n (by simp)
      · rw [hframe n (hrests n hmem) fun he => hmiddle.1 (he ▸ hmem)]
        exact hdeclared n (by simp [hmem])
    obtain ⟨ls₂, hexec₂, hresult, hframe₂⟩ := ih (hsublist.nodup hnodup)
      (by simp [houtput.1, houtput.2.2]) (Locals.read_value hvalue) hdeclared₁
    refine ⟨ls₂, ?_, hresult, fun n hn hno => ?_⟩
    · rw [Program.exec_append, hexec₁]
      exact hexec₂
    · rw [Program.locals_append] at hn
      simp only [List.mem_append, List.mem_cons, not_or] at hn
      rw [hframe₂ n (by simp [hn.1.2, hn.2.2]) hno, hframe n hn.2.1 hn.1.1]

variable (rt arguments) in
theorem exec_declaring (entries : List (String × String)) (p : Program) (ls : Locals V) :
    ∃ ls₀ : Locals V, (p.declaring entries).exec rt arguments ls = p.exec rt arguments ls₀ ∧
      (∀ n ∈ entries.map Prod.fst, (ls₀.lookup n).isSome) ∧
      ∀ n ∉ entries.map Prod.fst, ls₀.lookup n = ls.lookup n := by
  induction entries generalizing ls with
  | nil => exact ⟨ls, rfl, nofun, fun _ _ => rfl⟩
  | cons entry rest ih =>
    obtain ⟨ls₀, hexec, hnew, hframe⟩ := ih ((entry.1, .pending) :: ls)
    refine ⟨ls₀, hexec, fun n hn => ?_, fun n hn => ?_⟩
    · by_cases hrest : n ∈ rest.map Prod.fst
      · exact hnew n hrest
      · obtain rfl : n = entry.1 := (List.mem_cons.1 hn).resolve_right hrest
        rw [hframe _ hrest, List.lookup_cons_self]
        rfl
    · obtain ⟨hne, hrest⟩ := not_or.1 fun h => hn (List.mem_cons.2 h)
      rw [hframe n hrest, Locals.lookup_cons_ne hne]

theorem ChainCode.puts_declaring {entries : List (String × String)}
    (h : ChainCode output es x middles p) (hnodup : (middles ++ p.locals).Nodup)
    (houtput : output ∉ middles ++ p.locals)
    (hentries : ∀ n, n ∈ entries.map Prod.fst ↔ n ∈ middles) (hx : x.name ∉ middles)
    (hread : ls.read rt arguments x.name = some v) (hdeclared : (ls.lookup output).isSome) :
    Puts rt arguments (p.declaring entries) ls output (es.foldl (fun w e => e.apply rt w) v)
      (middles ++ p.locals) := by
  obtain ⟨ls₀, hexec, hnew, hframe⟩ := exec_declaring rt arguments entries p ls
  simp only [hentries] at hnew hframe
  have hread₀ : ls₀.read rt arguments x.name = some v := by
    rw [Locals.read_congr (hframe _ hx), hread]
  have hslots : ∀ n ∈ output :: middles, (ls₀.lookup n).isSome := by
    intro n hn
    rcases List.mem_cons.1 hn with rfl | hmem
    · rw [hframe n fun hm => houtput (List.mem_append_left _ hm)]
      exact hdeclared
    · exact hnew n hmem
  obtain ⟨ls', hrun, hresult, hrest⟩ := h.puts hnodup houtput hread₀ hslots
  refine ⟨ls', hexec.trans hrun, hresult, fun n hn hno => ?_⟩
  rw [hrest n hn hno, hframe n fun hm => hn (List.mem_append_left _ hm)]

end Meaning

namespace Store

open Converter

variable {s : Store} {t u : TypeExpr} {c : Converter}

theorem chainAt_of_converter (h : s.converter? t u = some c) (hne : t ≠ u) :
    ∃ p, ChainAt s.edges [t] p c := by
  rw [converter?, if_neg hne] at h
  obtain ⟨p, hp, -⟩ := (s.search_eq_some_iff _ _).1 h
  exact ⟨p, hp.route.chain⟩

/-- The code of a converter between different types. Its steps lead from the one type to the other.
It declares a variable for each step but the last, with the type that the step produces, and takes
the steps in order, each from the variable that the step before assigned. Those variables and the ones
inside of null-safe steps are all different, so that the output gets what the steps make of the
input. -/
theorem write_runs_chain (h : s.converter? t u = some c) (hne : t ≠ u) (input output : String)
    (sc : Scope) :
    (∀ e ∈ c.steps, e ∈ s.edges) ∧ Leads t c.steps u ∧ c.steps.length = c.hops ∧
    ∃ middles p, middles.length + 1 = c.hops ∧
      (c.write input output sc).2.block =
        sc.block.append (p.declaring (declared middles c.steps)) ∧
      ChainCode output c.steps (.parameter input) middles p ∧
      (middles ++ p.locals).Nodup ∧
      ∀ {V : Type} (rt : Runtime V) (arguments : String → V) (ls : Locals V) (v : V),
        input ∉ middles → output ∉ middles ++ p.locals →
        ls.read rt arguments input = some v → (ls.lookup output).isSome →
        Puts rt arguments (p.declaring (declared middles c.steps)) ls output
          (c.steps.foldl (fun w e => e.apply rt w) v) (middles ++ p.locals) := by
  obtain ⟨path, hchain⟩ := chainAt_of_converter h hne
  obtain ⟨hsource, htarget⟩ := converter_eq_some h
  have hlength := length_steps hchain
  have hleads := leads_of_chainAt hchain hsource
  rw [htarget] at hleads
  obtain ⟨middles, p, hcode, hprogram⟩ :=
    chainCode_draft hchain (.parameter input) output sc.naming
  have hmiddles : (declared middles c.steps).map Prod.fst = middles.reverse :=
    map_fst_declared (by have := hcode.length_eq; omega)
  have hnames : (middles ++ p.locals).Nodup := by
    have hgives := (gives_draft c (.parameter input) output sc.naming).nodup
    rw [hprogram, Program.locals_declaring, hmiddles] at hgives
    exact ((List.reverse_perm middles).append_right p.locals).nodup_iff.1 hgives
  refine ⟨steps_mem_of_chainAt steps_of_mem_edges hchain, hleads, hlength, middles, p,
    hlength ▸ hcode.length_eq, ?_, hcode, hnames,
    fun {V} rt arguments ls v hinput houtput hread hdeclared => ?_⟩
  · have hwrite := congrFun (c.realize_draft (.parameter input) output) sc
    rw [← hprogram, show c.write input output sc = _ from hwrite.symm]
    rfl
  · refine hcode.puts_declaring hnames houtput (fun n => ?_) hinput hread hdeclared
    rw [hmiddles, List.mem_reverse]

/-- An optional number becomes an optional text by way of an optional date. -/
theorem write_runs_chain_date : ∃ c middle p,
    mixedStore.converter? (TypeExpr.simple "i64").nullable TypeExpr.string.nullable = some c ∧
    (c.write "_in" "_out" { members := { className := "Dao" } }).2.block =
      ({} : Block).append (.step (.declare middle "Option<Date>") p) ∧
    ChainCode "_out"
      [.nullSafe (.custom (dateConverter "from_millis" (.simple "i64") (.simple "Date"))),
        .nullSafe (.custom (dateConverter "to_text" (.simple "Date") .string))]
      (.parameter "_in") [middle] p := by
  have hfound : mixedStore.converter? (TypeExpr.simple "i64").nullable TypeExpr.string.nullable =
      some (.chain
        (.nullSafe (.custom (dateConverter "from_millis" (.simple "i64") (.simple "Date"))))
        (.nullSafe (.custom (dateConverter "to_text" (.simple "Date") .string)))) := by
    decide +kernel
  obtain ⟨-, -, -, middles, p, hlength, hblock, hcode, -⟩ :=
    write_runs_chain hfound (by decide) "_in" "_out" { members := { className := "Dao" } }
  obtain ⟨middle, rfl⟩ := List.length_eq_one_iff.1 (Nat.succ.inj hlength)
  have htype : ((TypeExpr.simple "Date").nullable).display = "Option<Date>" := by decide +kernel
  exact ⟨_, middle, p, hfound, htype ▸ hblock, hcode⟩

end Store

end DataAccess.Convert
