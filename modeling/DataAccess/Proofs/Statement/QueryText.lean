import DataAccess.Proofs.Statement.Placeholders

/-!
The code that puts the text of a query together when a parameter takes as many placeholders as it
has elements.
-/

set_option autoImplicit false

namespace DataAccess.Statement

open Code DataAccess.Convert Sql

/-- A part of the text: a text, or the placeholders of a collection. -/
inductive Part where
  | text (text : String)
  | items (x : String)

namespace Part

def piece : Part → Piece
  | text t => .text t
  | items x => .placeholders (x ++ ".len()")

def items? : Part → Option String
  | text _ => none
  | items x => some x

def content {V : Type} (rt : Runtime V) (arguments : String → V) : Part → String
  | text t => t
  | items x => rt.placeholders (rt.items (arguments x)).length

def contents {V : Type} (rt : Runtime V) (arguments : String → V) : List Part → String
  | [] => ""
  | p :: parts => p.content rt arguments ++ contents rt arguments parts

def consText (t : String) : List Part → List Part
  | text rest :: more => text (t ++ rest) :: more
  | parts => if t.isEmpty then parts else text t :: parts

variable {V : Type} {rt : Runtime V} {arguments : String → V}

theorem map_piece_consText (t : String) (parts : List Part) :
    (consText t parts).map piece = Piece.consText t (parts.map piece) := by
  cases parts with
  | nil =>
    simp only [consText, Piece.consText, List.map_nil]
    split <;> rfl
  | cons p parts =>
    cases p with
    | text rest => rfl
    | items x =>
      simp only [consText, Piece.consText, List.map_cons, piece]
      split <;> rfl

theorem contents_consText (t : String) (parts : List Part) :
    contents rt arguments (consText t parts) = t ++ contents rt arguments parts := by
  have hempty : ∀ rest, contents rt arguments (if t.isEmpty then rest else text t :: rest) =
      t ++ contents rt arguments rest := by
    intro rest
    by_cases h : t.isEmpty
    · obtain rfl : t = "" := by simpa using h
      simp
    · rw [if_neg h]
      rfl
  cases parts with
  | nil => exact hempty []
  | cons p parts =>
    cases p with
    | text rest => simp [consText, contents, content, String.append_assoc]
    | items x => exact hempty (items x :: parts)

theorem filterMap_items_consText (t : String) (parts : List Part) :
    (consText t parts).filterMap items? = parts.filterMap items? := by
  have hempty : ∀ rest : List Part,
      (if t.isEmpty then rest else text t :: rest).filterMap items? = rest.filterMap items? := by
    intro rest
    split <;> rfl
  cases parts with
  | nil => exact hempty []
  | cons p parts =>
    cases p with
    | text rest => rfl
    | items x => exact hempty (items x :: parts)

end Part

/-- The parts of the text, given the bindings of its placeholders. -/
def parts : List Section → List Binding → List Part
  | [], _ => []
  | .bind _ _ :: sections, b :: bindings =>
    match b.collectionName? with
    | some x => .items x :: parts sections bindings
    | none => Part.consText "?" (parts sections bindings)
  | .bind _ _ :: sections, [] => Part.consText "?" (parts sections [])
  | s :: sections, bindings => Part.consText s.source (parts sections bindings)

theorem sizeExpr_of_collection {b : Binding} {x : String} {a : Argument}
    (h : b.collection? = some (x, a)) : a.sizeExpr x = x ++ ".len()" := by
  have hcollection : a.isCollection = true := (Option.filter_eq_some_iff.1 h).2
  rw [Argument.sizeExpr, if_pos hcollection]

theorem map_piece_parts (sections : List Section) (bindings : List Binding) :
    (parts sections bindings).map Part.piece = pieces sections bindings := by
  induction sections generalizing bindings with
  | nil => rfl
  | cons s sections ih =>
    cases s with
    | text t => simp only [parts, pieces, Part.map_piece_consText, ih]
    | newLine => simp only [parts, pieces, Part.map_piece_consText, ih]
    | bind t name =>
      cases bindings with
      | nil => simp only [parts, pieces, Part.map_piece_consText, ih]
      | cons b bindings =>
        rw [parts, pieces, Binding.collectionName?]
        cases h : b.collection? with
        | none => simp only [Option.map_none, Part.map_piece_consText, ih]
        | some entry =>
          obtain ⟨x, a⟩ := entry
          simp only [Option.map_some, List.map_cons, Part.piece, ih, sizeExpr_of_collection h]

theorem contents_parts {V : Type} (rt : Runtime V) (arguments : String → V)
    (sections : List Section) (bindings : List Binding) :
    Part.contents rt arguments (parts sections bindings) = filled rt arguments sections bindings := by
  induction sections generalizing bindings with
  | nil => rfl
  | cons s sections ih =>
    cases s with
    | text t => simp only [parts, filled, Part.contents_consText, ih]
    | newLine => simp only [parts, filled, Part.contents_consText, ih]
    | bind t name =>
      cases bindings with
      | nil => simp only [parts, filled, Part.contents_consText, ih]
      | cons b bindings =>
        rw [parts, filled, Binding.slots]
        cases b.collectionName? with
        | none => simp only [Part.contents_consText, ih]
        | some x => simp only [Part.contents, Part.content, ih]

/-- The collections of the parts are those of the bindings. -/
theorem filterMap_items_parts {sections : List Section} {bindings : List Binding}
    (h : (sections.filter Section.isBind).length = bindings.length) :
    (parts sections bindings).filterMap Part.items? = bindings.filterMap Binding.collectionName? := by
  induction sections generalizing bindings with
  | nil =>
    obtain rfl : bindings = [] := List.length_eq_zero_iff.1 h.symm
    rfl
  | cons s sections ih =>
    cases s with
    | text t =>
      simp only [parts, Part.filterMap_items_consText]
      exact ih h
    | newLine =>
      simp only [parts, Part.filterMap_items_consText]
      exact ih h
    | bind t name =>
      cases bindings with
      | nil => cases h
      | cons b bindings =>
        have h : (sections.filter Section.isBind).length = bindings.length := Nat.succ.inj h
        rw [parts]
        cases hb : b.collectionName? with
        | none => rw [Part.filterMap_items_consText, ih h, List.filterMap_cons_none hb]
        | some x => simp only [List.filterMap_cons, Part.items?, hb, ih h]

namespace Part

def draft (builder : String) : Part → Draft (Option String)
  | text t => do
    Draft.step (.pushText builder t)
    return none
  | items x => do
    let size ← Draft.fresh "input_size"
    Draft.step (.define "let " size "" (.length (.parameter x)))
    Draft.step (.pushPlaceholders builder size)
    return some size

def draftAll (builder : String) : List Part → Draft (List String)
  | [] => return []
  | p :: parts => do
    match ← p.draft builder with
    | none => draftAll builder parts
    | some size => return size :: (← draftAll builder parts)

theorem realize_draft (builder : String) (p : Part) :
    (p.draft builder).realize = BoundQuery.writePiece builder p.piece := by
  cases p with
  | text t => simp [draft, BoundQuery.writePiece, piece, Instr.text]
  | items x =>
    have htext (size : String) : Instr.placeholdersText builder size =
        "string_util::append_placeholders(&mut " ++ builder ++ ", " ++ size ++ ")" := rfl
    simp [draft, BoundQuery.writePiece, piece, htext, Instr.text, Expr.text, String.append_assoc]

theorem realize_draftAll (builder : String) (parts : List Part) :
    (draftAll builder parts).realize =
      (parts.map piece).filterMapM (BoundQuery.writePiece builder) := by
  induction parts with
  | nil => exact Draft.realize_pure []
  | cons p parts ih =>
    rw [draftAll, Draft.realize_bind, realize_draft, List.map_cons, List.filterMapM_cons]
    refine bind_congr fun size? => ?_
    cases size? with
    | none => exact ih
    | some size => rw [Draft.realize_bind, ih]; simp only [Draft.realize_pure]

theorem extends_draft (builder : String) (p : Part) : (p.draft builder).Extends := by
  cases p with
  | text t => exact (Draft.extends_step _).bind fun _ => Draft.extends_pure _
  | items x =>
    refine (Draft.extends_fresh _).bind fun size => (Draft.extends_step _).bind fun _ => ?_
    exact (Draft.extends_step _).bind fun _ => Draft.extends_pure _

theorem extends_draftAll (builder : String) (parts : List Part) :
    (draftAll builder parts).Extends := by
  induction parts with
  | nil => exact Draft.extends_pure []
  | cons p parts ih =>
    refine (extends_draft builder p).bind fun size? => ?_
    cases size? with
    | none => exact ih
    | some size => exact ih.bind fun _ => Draft.extends_pure _

section Meaning

variable {V : Type} {ls : Locals V} {builder x : String} {t : Naming}

theorem program_draftAll_text (u : String) (parts : List Part) :
    (draftAll builder (text u :: parts) t).program =
      .step (.pushText builder u) (draftAll builder parts t).program := rfl

theorem program_draftAll_items (parts : List Part) :
    (draftAll builder (items x :: parts) t).program =
      .step (.define "let " (Draft.fresh "input_size" t).value "" (.length (.parameter x)))
        (.step (.pushPlaceholders builder (Draft.fresh "input_size" t).value)
          (draftAll builder parts (Draft.fresh "input_size" t).naming).program) :=
  congrArg (fun rest => Program.step _ (.step _ rest)) (Program.append_done _)

/-- What a text as the next part does: the text is longer by it, all else is as before. -/
theorem exec_pushText (rt : Runtime V) (arguments : String → V) {s : String} (u : String)
    (rest : Program) (hs : ls.lookup builder = some (.text s)) :
    ∃ ls', (Program.step (.pushText builder u) rest).exec rt arguments ls =
        rest.exec rt arguments ls' ∧
      ls'.names = ls.names ∧ ls'.lookup builder = some (.text (s ++ u)) ∧
      ∀ n, n ≠ builder → ls'.lookup n = ls.lookup n := by
  refine ⟨ls.assign builder (.text (s ++ u)), Program.exec_step ?_, Locals.names_assign,
    Locals.lookup_assign_self (Locals.mem_names_of_lookup hs),
    fun n hn => Locals.lookup_assign_ne hn⟩
  simp [Instr.exec, Locals.text?, hs]

/-- What a collection as the next part does: its elements are counted into a new variable, the text
is longer by that many placeholders, all else is as before. -/
theorem exec_pushItems (rt : Runtime V) (arguments : String → V) {s size : String}
    (rest : Program) (hs : ls.lookup builder = some (.text s)) (hx : x ∉ ls.names) (hne : builder ≠ size) :
    ∃ ls', (Program.step (.define "let " size "" (.length (.parameter x)))
          (.step (.pushPlaceholders builder size) rest)).exec rt arguments ls =
        rest.exec rt arguments ls' ∧
      ls'.names = size :: ls.names ∧
      ls'.lookup builder = some (.text (s ++ content rt arguments (.items x))) ∧
      ls'.lookup size = some (.number (rt.items (arguments x)).length) ∧
      ∀ n, n ≠ size → n ≠ builder → ls'.lookup n = ls.lookup n := by
  let ls₁ : Locals V := (size, .number (rt.items (arguments x)).length) :: ls
  have hs₁ : ls₁.lookup builder = some (.text s) := (Locals.lookup_cons_ne hne).trans hs
  have hdefine : (Instr.define "let " size "" (.length (.parameter x))).exec rt arguments ls =
      some ls₁ := by
    have hread : ls.read rt arguments x = some (arguments x) := Locals.read_parameter hx
    simp [Instr.exec, Expr.eval, hread, ls₁]
  have hpush : (Instr.pushPlaceholders builder size).exec rt arguments ls₁ =
      some (ls₁.assign builder (.text (s ++ content rt arguments (.items x)))) := by
    have htext : ls₁.text? builder = some s := by rw [Locals.text?, hs₁]
    have hlength : ls₁.number? size = some (rt.items (arguments x)).length := by
      rw [Locals.number?, List.lookup_cons_self]
    simp only [Instr.exec, htext, hlength, Option.bind_eq_bind, Option.bind_some]
    rfl
  refine ⟨_, (Program.exec_step hdefine).trans (Program.exec_step hpush), Locals.names_assign,
    Locals.lookup_assign_self (Locals.mem_names_of_lookup hs₁), ?_, fun n hn hnb => ?_⟩
  · rw [Locals.lookup_assign_ne hne.symm]
    exact List.lookup_cons_self
  · rw [Locals.lookup_assign_ne hnb]
    exact Locals.lookup_cons_ne hn

/-- The code of all parts puts the text together and counts the elements of the collections. -/
theorem exec_draftAll (rt : Runtime V) (arguments : String → V) (parts : List Part) {s : String}
    (hbuilder : t.Issued builder)
    (hclear : (draftAll builder parts t).program.unshadowed ls.names)
    (hs : ls.lookup builder = some (.text s)) :
    ∃ ls', (draftAll builder parts t).program.exec rt arguments ls = some ls' ∧
      ls'.lookup builder = some (.text (s ++ contents rt arguments parts)) ∧
      (draftAll builder parts t).value.map ls'.number? =
        (parts.filterMap items?).map (fun x => some (rt.items (arguments x)).length) ∧
      ∀ n, t.Issued n → n ≠ builder → ls'.lookup n = ls.lookup n := by
  induction parts generalizing t ls s with
  | nil => exact ⟨ls, rfl, by rw [contents, String.append_empty, hs], rfl, fun _ _ _ => rfl⟩
  | cons p parts ih =>
    cases p with
    | text u =>
      obtain ⟨ls₁, hpush, hnames, hs₁, hframe₁⟩ := exec_pushText rt arguments u
        (draftAll builder parts t).program hs
      obtain ⟨ls', hexec, htext, hsizes, hframe⟩ := ih hbuilder (hnames ▸ hclear) hs₁
      refine ⟨ls', ?_, ?_, hsizes, fun n hn hne => ?_⟩
      · rw [program_draftAll_text, hpush, hexec]
      · rw [htext, contents, content, String.append_assoc]
      · rw [hframe n hn hne, hframe₁ n hne]
    | items x =>
      let t₁ := (Draft.fresh "input_size" t).naming
      let size := (Draft.fresh "input_size" t).value
      have hextends : t.Extends t₁ := Naming.extends_fresh "input_size" t
      have hnew : ¬t.Issued size := Naming.not_issued_fresh (by decide) t
      have hsize : t₁.Issued size := Naming.issued_fresh (by decide) t
      have hne : builder ≠ size := fun he => hnew (he ▸ hbuilder)
      rw [program_draftAll_items] at hclear ⊢
      have hclear : x ∉ ls.names ∧
          (draftAll builder parts t₁).program.unshadowed (size :: ls.names) := by
        simpa [Program.unshadowed, Instr.isClear, Expr.isClear, Var.isClear,
          Instr.declares] using hclear
      obtain ⟨ls₁, hpush, hnames, hs₁, hnumber, hframe₁⟩ := exec_pushItems rt arguments
        (draftAll builder parts t₁).program hs hclear.1 hne
      obtain ⟨ls', hexec, htext, hsizes, hframe⟩ :=
        ih (hextends _ hbuilder) (hnames ▸ hclear.2) hs₁
      refine ⟨ls', hpush.trans hexec, ?_, ?_, fun n hn hnb => ?_⟩
      · rw [htext, contents, String.append_assoc]
      · have hcount : ls'.number? size = some (rt.items (arguments x)).length := by
          rw [Locals.number?, hframe size hsize hne.symm, hnumber]
        exact List.cons_eq_cons.2 ⟨hcount, hsizes⟩
      · rw [hframe n (hextends n hn) hnb, hframe₁ n (fun he => hnew (he ▸ hn)) hnb]

/-- The variables for the numbers of elements are new ones. -/
theorem not_issued_draftAll (parts : List Part) :
    ∀ n ∈ (draftAll builder parts t).value, ¬t.Issued n := by
  induction parts generalizing t with
  | nil => nofun
  | cons p parts ih =>
    cases p with
    | text u => exact ih
    | items x =>
      intro n hn
      rcases List.mem_cons.1 hn with rfl | hn
      · exact Naming.not_issued_fresh (by decide) t
      · exact fun h => ih n hn (Naming.extends_fresh "input_size" t n h)

/-- The code of the parts reads the collections only. -/
theorem unshadowed_draftAll {parts : List Part} {visible : List String}
    (h : ∀ x ∈ parts.filterMap items?, x ∉ (draftAll builder parts t).program.declares ++ visible) :
    (draftAll builder parts t).program.unshadowed visible := by
  induction parts generalizing t visible with
  | nil => rfl
  | cons p parts ih =>
    cases p with
    | text u =>
      rw [program_draftAll_text] at h ⊢
      simp only [Program.declares, Instr.declares, List.append_nil] at h
      exact ih h
    | items y =>
      rw [program_draftAll_items] at h ⊢
      simp only [Program.declares, Instr.declares, List.append_nil, List.append_assoc,
        List.singleton_append] at h
      have hy := h y List.mem_cons_self
      have hrest := ih fun x hx => h x (List.mem_cons_of_mem y hx)
      simp_all [Program.unshadowed, Instr.isClear, Expr.isClear, Var.isClear, Instr.declares]

end Meaning

end Part

end DataAccess.Statement
