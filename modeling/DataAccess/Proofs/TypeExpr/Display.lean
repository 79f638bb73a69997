import DataAccess.TypeExpr
import Mathlib.Data.List.Basic

/-!
The texts of types. In a type that is written with paths the colons stand in pairs, so that a single
colon behind its text is told from those inside. Such a type can be told from its text.
-/

set_option autoImplicit false

namespace DataAccess

/-- The colons of a text stand in pairs. -/
inductive PairedColons : List Char → Prop where
  | nil : PairedColons []
  | pair {rest : List Char} (h : PairedColons rest) : PairedColons (':' :: ':' :: rest)
  | other {c : Char} {rest : List Char} (hc : c ≠ ':') (h : PairedColons rest) :
    PairedColons (c :: rest)

namespace PairedColons

variable {a a' b b' : List Char}

theorem append (ha : PairedColons a) (hb : PairedColons b) : PairedColons (a ++ b) := by
  induction ha with
  | nil => exact hb
  | pair _ ih => exact .pair ih
  | other hc _ ih => exact .other hc ih

theorem of_not_mem (h : ':' ∉ a) : PairedColons a := by
  induction a with
  | nil => exact .nil
  | cons c a ih =>
    rw [List.mem_cons, not_or] at h
    exact .other (Ne.symm h.1) (ih h.2)

/-- A single colon ends the text before it. -/
theorem eq_of_append (ha : PairedColons a) (ha' : PairedColons a') (hb : b.head? ≠ some ':')
    (hb' : b'.head? ≠ some ':') (h : a ++ ':' :: b = a' ++ ':' :: b') : a = a' ∧ b = b' := by
  induction ha generalizing a' with
  | nil =>
    cases ha' with
    | nil => exact ⟨rfl, List.tail_eq_of_cons_eq h⟩
    | pair => exact absurd (congrArg List.head? (List.tail_eq_of_cons_eq h)) hb
    | other hc => exact absurd (List.head_eq_of_cons_eq h).symm hc
  | pair _ ih =>
    cases ha' with
    | nil => exact absurd (congrArg List.head? (List.tail_eq_of_cons_eq h)).symm hb'
    | pair hrest =>
      obtain ⟨rfl, rfl⟩ := ih hrest (List.tail_eq_of_cons_eq (List.tail_eq_of_cons_eq h))
      exact ⟨rfl, rfl⟩
    | other hc => exact absurd (List.head_eq_of_cons_eq h).symm hc
  | other hc _ ih =>
    cases ha' with
    | nil => exact absurd (List.head_eq_of_cons_eq h) hc
    | pair => exact absurd (List.head_eq_of_cons_eq h) hc
    | other _ hrest =>
      obtain ⟨rfl, rfl⟩ := ih hrest (List.tail_eq_of_cons_eq h)
      exact ⟨congrArg (· :: _) (List.head_eq_of_cons_eq h), rfl⟩

end PairedColons

/-- A text that starts with something else than a colon, and whose colons stand in pairs. -/
structure KeyName (s : List Char) : Prop where
  first : ∃ c ∈ s.head?, c ≠ ':'
  colons : PairedColons s

namespace KeyName

variable {a b : List Char}

theorem of_not_mem (hne : a ≠ []) (h : ':' ∉ a) : KeyName a :=
  ⟨⟨a.head hne, List.head_mem_head? hne, fun heq => h (heq ▸ List.head_mem hne)⟩, .of_not_mem h⟩

theorem append (ha : KeyName a) (hb : PairedColons b) : KeyName (a ++ b) := by
  obtain ⟨c, hc, hne⟩ := ha.first
  exact ⟨⟨c, List.mem_head?_append_of_mem_head? hc, hne⟩, ha.colons.append hb⟩

theorem head?_append_ne (ha : KeyName a) (b : List Char) : (a ++ b).head? ≠ some ':' := by
  obtain ⟨c, hc, hne⟩ := ha.first
  have hhead : (a ++ b).head? = some c := List.mem_head?_append_of_mem_head? hc
  rw [hhead]
  exact fun h => hne (Option.some.inj h)

end KeyName

namespace TypeExpr

/-- The punctuation of type arguments. -/
def IsPunctuation (c : Char) : Prop := c = '<' ∨ c = ',' ∨ c = '>'

instance : DecidablePred IsPunctuation :=
  fun c => inferInstanceAs (Decidable (c = '<' ∨ c = ',' ∨ c = '>'))

/-- A path as it is written before its arguments. -/
structure IsPath (name : List Char) : Prop where
  keyName : KeyName name
  plain : ∀ c ∈ name, ¬IsPunctuation c

/-- The types that have a text of their own. -/
inductive Written : TypeExpr → Prop where
  | mk {name : String} {args : List TypeExpr} (path : IsPath name.toList)
    (written : ∀ a ∈ args, Written a) : Written (.mk name args)

theorem IsPath.of_plain {name : List Char} (hne : name ≠ [])
    (h : ∀ c ∈ name, c ≠ ':' ∧ ¬IsPunctuation c) : IsPath name :=
  ⟨.of_not_mem hne fun hcolon => (h ':' hcolon).1 rfl, fun c hc => (h c hc).2⟩

/-- Whether a text is a path without colons can be computed. -/
theorem IsPath.of_all {name : List Char} (hne : name ≠ [])
    (h : name.all (fun c => c ≠ ':' ∧ ¬IsPunctuation c) = true) : IsPath name :=
  .of_plain hne fun c hc => of_decide_eq_true (List.all_eq_true.1 h c hc)

theorem pairedColons_moreChars {args : List TypeExpr} (h : ∀ a ∈ args, KeyName a.chars) :
    PairedColons (moreChars args) := by
  induction args with
  | nil => exact .nil
  | cons a args ih =>
    rw [List.forall_mem_cons] at h
    rw [moreChars]
    exact .other (by decide) (.other (by decide) (h.1.colons.append (ih h.2)))

theorem Written.keyName {t : TypeExpr} (h : t.Written) : KeyName t.chars := by
  induction h with
  | @mk name args path _ ih =>
    cases args with
    | nil =>
      rw [chars]
      exact path.keyName
    | cons a args =>
      rw [List.forall_mem_cons] at ih
      rw [chars]
      refine path.keyName.append (.other (by decide) ((ih.1.colons.append ?_).append ?_))
      · exact pairedColons_moreChars ih.2
      · exact .other (by decide) .nil

/-- A text without punctuation ends where punctuation follows. -/
theorem eq_of_append_punctuation {a a' b b' : List Char} (ha : ∀ c ∈ a, ¬IsPunctuation c)
    (ha' : ∀ c ∈ a', ¬IsPunctuation c) (hb : ∀ c ∈ b.head?, IsPunctuation c)
    (hb' : ∀ c ∈ b'.head?, IsPunctuation c) (h : a ++ b = a' ++ b') : a = a' ∧ b = b' := by
  induction a generalizing a' with
  | nil =>
    cases a' with
    | nil => exact ⟨rfl, h⟩
    | cons c a' =>
      rw [List.nil_append] at h
      exact absurd (hb c (by rw [h]; rfl)) (ha' c List.mem_cons_self)
  | cons c a ih =>
    cases a' with
    | nil =>
      rw [List.nil_append] at h
      exact absurd (hb' c (by rw [← h]; rfl)) (ha c List.mem_cons_self)
    | cons c' a' =>
      rw [List.forall_mem_cons] at ha ha'
      obtain ⟨rfl, htail⟩ := List.cons_eq_cons.1 h
      obtain ⟨rfl, rfl⟩ := ih ha.2 ha'.2 htail
      exact ⟨rfl, rfl⟩

/-- Nothing follows, or what ends an argument. -/
def EndsArgument (rest : List Char) : Prop := ∀ c ∈ rest.head?, c = ',' ∨ c = '>'

/-- The text of the arguments with their brackets. -/
def argumentChars : List TypeExpr → List Char
  | [] => []
  | a :: args => '<' :: (a.chars ++ moreChars args ++ ['>'])

theorem chars_mk (name : String) (args : List TypeExpr) :
    (mk name args).chars = name.toList ++ argumentChars args := by
  cases args with
  | nil => rw [chars, argumentChars, List.append_nil]
  | cons a args => rw [chars, argumentChars]

theorem endsArgument_more (args : List TypeExpr) (rest : List Char) :
    EndsArgument (moreChars args ++ '>' :: rest) := by
  intro c hc
  cases args with
  | nil => exact .inr (Option.some.inj hc).symm
  | cons a args => exact .inl (Option.some.inj hc).symm

theorem isPunctuation_head {args : List TypeExpr} {rest : List Char} (hrest : EndsArgument rest) :
    ∀ c ∈ (argumentChars args ++ rest).head?, IsPunctuation c := by
  intro c hc
  cases args with
  | nil => exact .inr (hrest c hc)
  | cons a args => exact .inl (Option.some.inj hc).symm

/-- The text of the type is that of no other type, whatever ends the argument. -/
def ReadsBack (t : TypeExpr) : Prop := ∀ t' : TypeExpr, ∀ rest rest' : List Char, t'.Written →
  EndsArgument rest → EndsArgument rest' → t.chars ++ rest = t'.chars ++ rest' →
  t = t' ∧ rest = rest'

theorem eq_of_append_more {args args' : List TypeExpr} {rest rest' : List Char}
    (hread : ∀ a ∈ args, a.ReadsBack) (hwritten : ∀ a ∈ args', a.Written)
    (heq : moreChars args ++ '>' :: rest = moreChars args' ++ '>' :: rest') :
    args = args' ∧ rest = rest' := by
  induction args generalizing args' with
  | nil =>
    cases args' with
    | nil => exact ⟨rfl, List.tail_eq_of_cons_eq heq⟩
    | cons a' args' => exact absurd (List.head_eq_of_cons_eq heq) (by decide)
  | cons a args ih =>
    cases args' with
    | nil => exact absurd (List.head_eq_of_cons_eq heq) (by decide)
    | cons a' args' =>
      rw [List.forall_mem_cons] at hread hwritten
      simp only [moreChars, List.cons_append, List.append_assoc, List.cons.injEq, true_and] at heq
      obtain ⟨rfl, hmore⟩ := hread.1 a' _ _ hwritten.1 (endsArgument_more _ _)
        (endsArgument_more _ _) heq
      obtain ⟨rfl, rfl⟩ := ih hread.2 hwritten.2 hmore
      exact ⟨rfl, rfl⟩

theorem not_endsArgument_open (args : List TypeExpr) (a : TypeExpr) (rest : List Char) :
    ¬EndsArgument (argumentChars (a :: args) ++ rest) := by
  intro h
  obtain h | h := h '<' rfl
  · exact absurd h (by decide)
  · exact absurd h (by decide)

theorem Written.readsBack {t : TypeExpr} (h : t.Written) : t.ReadsBack := by
  induction h with
  | @mk name args path _ ih =>
    intro t' rest rest' h' hrest hrest' heq
    obtain @⟨name', args', path', written'⟩ := h'
    rw [chars_mk, chars_mk, List.append_assoc, List.append_assoc] at heq
    obtain ⟨hname, hargs⟩ := eq_of_append_punctuation path.plain path'.plain
      (isPunctuation_head hrest) (isPunctuation_head hrest') heq
    obtain rfl := String.toList_inj.1 hname
    cases args with
    | nil =>
      cases args' with
      | nil => exact ⟨rfl, hargs⟩
      | cons a' args' =>
        rw [show rest = _ from hargs] at hrest
        exact absurd hrest (not_endsArgument_open args' a' rest')
    | cons a args =>
      cases args' with
      | nil =>
        rw [show rest' = _ from hargs.symm] at hrest'
        exact absurd hrest' (not_endsArgument_open args a rest)
      | cons a' args' =>
        rw [List.forall_mem_cons] at ih written'
        simp only [argumentChars, List.cons_append, List.append_assoc, List.nil_append,
          List.cons.injEq, true_and] at hargs
        obtain ⟨rfl, hmore⟩ := ih.1 a' _ _ written'.1 (endsArgument_more _ _)
          (endsArgument_more _ _) hargs
        obtain ⟨rfl, rfl⟩ := eq_of_append_more ih.2 written'.2 hmore
        exact ⟨rfl, rfl⟩

/-- Types are told apart by their texts. -/
theorem Written.eq_of_display {t t' : TypeExpr} (h : t.Written) (h' : t'.Written)
    (heq : t.display = t'.display) : t = t' := by
  have hchars : t.chars ++ [] = t'.chars ++ [] := by
    rw [String.ofList_injective heq]
  have hend : EndsArgument [] := fun c hc => absurd hc (Option.not_mem_none c)
  exact (h.readsBack t' [] [] h' hend hend hchars).1

end TypeExpr

end DataAccess
