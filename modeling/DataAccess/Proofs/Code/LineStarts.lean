import DataAccess.Proofs.Code.EmittedLines

/-!
Lines of generated code by how they start. What follows the start may hold any text of a user's, a
type, a name or a literal; the start tells what the line does.
-/

set_option autoImplicit false

namespace DataAccess.Code

open ClassMembers (numbered)
open Emit (localBase)

/-- The text starts with the other one. -/
def Starts (head text : String) : Prop := head.toList <+: text.toList

instance (head text : String) : Decidable (Starts head text) :=
  inferInstanceAs (Decidable (_ <+: _))

section Starts

variable {head text : String}

theorem starts_append (head rest : String) : Starts head (head ++ rest) := by
  rw [Starts, String.toList_append]
  exact List.prefix_append _ _

theorem Starts.append (h : Starts head text) (rest : String) : Starts head (text ++ rest) :=
  List.IsPrefix.trans h (starts_append text rest)

theorem Starts.behind (lead : String) (h : Starts head text) :
    Starts (lead ++ head) (lead ++ text) := by
  rw [Starts, String.toList_append, String.toList_append]
  exact (List.prefix_append_right_inj _).2 h

theorem starts_numbered (base : String) (n : Nat) : Starts base (numbered base n) := by
  cases n with
  | zero => exact List.prefix_rfl
  | succ n => exact (starts_append base "_").append _

theorem localBase_append {lead : String} (hlead : lead.toList.head?.any (· ≠ '_') = true)
    (rest : String) : localBase (lead ++ rest) = "_" ++ lead ++ rest := by
  have htrim : trimUnderscores (lead ++ rest) = lead ++ rest := by
    rw [trimUnderscores, String.toList_append]
    cases hchars : lead.toList with
    | nil => simp [hchars] at hlead
    | cons c cs =>
      have hc : c ≠ '_' := by simpa [hchars] using hlead
      rw [List.cons_append, List.dropWhile_cons_of_neg (by simpa using hc), ← List.cons_append,
        ← hchars, ← String.toList_append, String.ofList_toList]
  rw [localBase, htrim, String.append_assoc]

theorem starts_localBase (lead rest : String) (hlead : lead.toList.head?.any (· ≠ '_') = true)
    (hhead : Starts head ("_" ++ lead)) : Starts head (localBase (lead ++ rest)) := by
  rw [localBase_append hlead]
  exact hhead.append rest

end Starts

/-- The text starts with one of the others. -/
def Opens (heads : List String) (text : String) : Prop := ∃ head ∈ heads, Starts head text

instance (heads : List String) (text : String) : Decidable (Opens heads text) :=
  inferInstanceAs (Decidable (∃ head ∈ heads, Starts head text))

section Opens

variable {heads heads' : List String} {text : String}

theorem Opens.append (h : Opens heads text) (rest : String) : Opens heads (text ++ rest) := by
  obtain ⟨head, hmem, hhead⟩ := h
  exact ⟨head, hmem, hhead.append rest⟩

theorem Opens.mono (h : Opens heads text) (hsub : heads ⊆ heads') : Opens heads' text := by
  obtain ⟨head, hmem, hhead⟩ := h
  exact ⟨head, hsub hmem, hhead⟩

theorem Opens.trans {head : String} (h : Opens heads head) (hhead : Starts head text) :
    Opens heads text := by
  obtain ⟨first, hmem, hfirst⟩ := h
  exact ⟨first, hmem, List.IsPrefix.trans hfirst hhead⟩

theorem Opens.behind (lead : String) (h : Opens heads text) :
    Opens (heads.map (lead ++ ·)) (lead ++ text) := by
  obtain ⟨head, hmem, hhead⟩ := h
  exact ⟨lead ++ head, List.mem_map_of_mem hmem, hhead.behind lead⟩

/-- No text of one list starts with one of the other list, so that no line opens with both. -/
def Apart (heads others : List String) : Prop :=
  ∀ head ∈ heads, ∀ other ∈ others, ¬Starts head other ∧ ¬Starts other head

instance (heads others : List String) : Decidable (Apart heads others) :=
  inferInstanceAs (Decidable (∀ head ∈ heads, ∀ other ∈ others, _))

theorem Apart.mono {others others' : List String} (h : Apart heads others) (hsub : others' ⊆ others) :
    Apart heads others' := fun head hhead other hother => h head hhead other (hsub hother)

theorem Opens.not_opens {others : List String} (h : Opens heads text) (hapart : Apart heads others) :
    ¬Opens others text := by
  rintro ⟨other, hother, hstarts⟩
  obtain ⟨head, hmem, hhead⟩ := h
  have hneither := hapart head hmem other hother
  exact (List.prefix_or_prefix_of_prefix hhead hstarts).elim hneither.1 hneither.2

end Opens

/-- The names of the variables of statements. -/
def statementNames : List String := ["_stmt", "_statement"]

/-- The variable of a statement that is ready to run. -/
def IsStatement (name : String) : Prop := ∃ base ∈ statementNames, ∃ n, name = numbered base n

theorem IsStatement.opens {name : String} (h : IsStatement name) : Opens statementNames name := by
  obtain ⟨base, hbase, n, rfl⟩ := h
  exact ⟨base, hbase, starts_numbered base n⟩

/-- How lines start that neither use nor declare a variable of their own. -/
def keywords : List String :=
  ["_cursor", "while ", "if ", "for ", "match &", "None => ", "Some(", "\x7d", "return Err(",
    "string_util::append_placeholders("]

/-- A line that moves values between variables, statements and rows: it uses or declares a variable
whose name starts as given, takes a statement or binds a value to it, or calls a method that fetches
related rows. -/
inductive PlainLine (names : List String) (object : String) : String → Prop
  | use {text : String} (h : Opens names text) : PlainLine names object text
  | declare {text : String} (h : Opens names text) : PlainLine names object ("let " ++ text)
  | declareMut {text : String} (h : Opens names text) : PlainLine names object ("let mut " ++ text)
  | keyword {text : String} (h : Opens keywords text) : PlainLine names object text
  | acquire {statement : String} (h : IsStatement statement) (rest : String) :
    PlainLine names object ("let " ++ (statement ++ rest))
  | acquireMut {statement : String} (h : IsStatement statement) (rest : String) :
    PlainLine names object ("let mut " ++ (statement ++ rest))
  | bind {statement : String} (h : IsStatement statement) (rest : String) :
    PlainLine names object (statement ++ (".bind_" ++ rest))
  | fetch (method map : String) :
    PlainLine names object (object ++ ("." ++ (method ++ ("(&mut " ++ (map ++ ")?;")))))

/-- How a plain line starts, unless it binds a value or fetches rows. -/
def plainHeads (names : List String) : List String :=
  names ++ keywords ++ (names ++ statementNames).map ("let " ++ ·) ++
    (names ++ statementNames).map ("let mut " ++ ·)

theorem PlainLine.opens {names : List String} {object text : String}
    (h : PlainLine names object text) :
    Opens (plainHeads names) text ∨
      (∃ statement rest, IsStatement statement ∧ text = statement ++ (".bind_" ++ rest)) ∨
      ∃ method map, text = object ++ ("." ++ (method ++ ("(&mut " ++ (map ++ ")?;")))) := by
  have hlet : ∀ {text : String}, Opens (names ++ statementNames) text →
      Opens (plainHeads names) ("let " ++ text) := fun h =>
    (h.behind "let ").mono
      (List.Subset.trans (List.subset_append_right _ _) (List.subset_append_left _ _))
  have hletMut : ∀ {text : String}, Opens (names ++ statementNames) text →
      Opens (plainHeads names) ("let mut " ++ text) := fun h =>
    (h.behind "let mut ").mono (List.subset_append_right _ _)
  have hbare : names ++ keywords ⊆ plainHeads names :=
    List.Subset.trans (List.subset_append_left _ _) (List.subset_append_left _ _)
  cases h with
  | use h => exact .inl (h.mono (List.Subset.trans (List.subset_append_left _ _) hbare))
  | keyword h => exact .inl (h.mono (List.Subset.trans (List.subset_append_right _ _) hbare))
  | declare h => exact .inl (hlet (h.mono (List.subset_append_left _ _)))
  | declareMut h => exact .inl (hletMut (h.mono (List.subset_append_left _ _)))
  | acquire h rest => exact .inl (hlet ((h.opens.append rest).mono (List.subset_append_right _ _)))
  | acquireMut h rest =>
    exact .inl (hletMut ((h.opens.append rest).mono (List.subset_append_right _ _)))
  | bind h rest => exact .inr (.inl ⟨_, rest, h, rfl⟩)
  | fetch method map => exact .inr (.inr ⟨method, map, rfl⟩)

end DataAccess.Code
