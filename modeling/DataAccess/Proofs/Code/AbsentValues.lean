import DataAccess.Proofs.Code.LineStarts

/-!
Variables that are set to `None`. Whether one may be is told by its last declaration. Names that
were given before stay declared as they are, since code that is written later declares names of its
own.
-/

set_option autoImplicit false

namespace DataAccess.Code

open ClassMembers (numbered)
open Emit (asked localBase written)

/-- The line that declares a variable with a type. -/
def declaration (name : String) (t : TypeExpr) : String :=
  "let " ++ name ++ ": " ++ t.display ++ ";"

/-- How a line starts that declares the variable. -/
def Redeclares (name text : String) : Prop := Starts ("let " ++ name ++ ": ") text

/-- The line sets the variable to `None`. -/
def SetsNone (name text : String) : Prop :=
  (text = name ++ " = None;" ∨ text = "None => " ++ name ++ " = None,") ∧ ¬Starts "let " text

/-- The last declaration of the variable among the lines has the type. -/
def DeclaredAs (name : String) (t : TypeExpr) (texts : List String) : Prop :=
  ∃ before after, texts = before ++ declaration name t :: after ∧
    ∀ text ∈ after, ¬Redeclares name text

/-- Behind other lines, every variable that is set to `None` was last declared with an optional
type. -/
def NoneFits (before texts : List String) : Prop :=
  ∀ front text back, texts = front ++ text :: back → ∀ name, SetsNone name text →
    ∃ t, t.isOption = true ∧ DeclaredAs name t (before ++ front)

/-- A variable is set to `None` that was last declared with a type that is not optional. -/
def NoneMisfits (texts : List String) : Prop :=
  ∃ front text back name t, texts = front ++ text :: back ∧ SetsNone name text ∧
    DeclaredAs name t front ∧ t.isOption = false

section Lines

variable {name text : String} {t : TypeExpr} {before texts xs ys : List String}

theorem declaredAs_declaration : DeclaredAs name t (before ++ [declaration name t]) :=
  ⟨before, [], rfl, List.forall_mem_nil _⟩

theorem DeclaredAs.append (h : DeclaredAs name t before)
    (hkeeps : ∀ text ∈ texts, ¬Redeclares name text) : DeclaredAs name t (before ++ texts) := by
  obtain ⟨front, back, rfl, hback⟩ := h
  refine ⟨front, back ++ texts, by simp, fun text htext => ?_⟩
  exact (List.mem_append.1 htext).elim (hback text) (hkeeps text)

theorem noneFits_nil : NoneFits before [] := fun _ _ _ h => absurd h (by simp)

theorem noneFits_singleton (h : ∀ name, SetsNone name text →
    ∃ t, t.isOption = true ∧ DeclaredAs name t before) : NoneFits before [text] := by
  intro front text' back hsplit name hnone
  obtain ⟨rfl, rfl, rfl⟩ : front = [] ∧ text = text' ∧ [] = back := by
    cases front with
    | nil => simpa using hsplit
    | cons _ front => exact absurd hsplit (by simp)
  simpa using h name hnone

theorem NoneFits.append (hx : NoneFits before xs) (hy : NoneFits (before ++ xs) ys) :
    NoneFits before (xs ++ ys) := by
  intro front text back hsplit name hnone
  rcases List.append_eq_append_iff.1 hsplit with ⟨as, rfl, hys⟩ | ⟨as, rfl, hback⟩
  · rw [← List.append_assoc]
    exact hy as text back hys name hnone
  · cases as with
    | nil =>
      have hfirst := hy [] text back hback.symm name hnone
      simpa using hfirst
    | cons a as =>
      obtain ⟨rfl, -⟩ := List.cons.inj hback
      exact hx front text as rfl name hnone

end Lines

/-- The text ends with the other one. -/
def Ends (tail text : String) : Prop := tail.toList <:+ text.toList

theorem ends_append (text tail : String) : Ends tail (text ++ tail) := by
  rw [Ends, String.toList_append]
  exact List.suffix_append _ _

theorem Ends.after {tail text : String} (h : Ends tail text) (lead : String) :
    Ends tail (lead ++ text) := List.IsSuffix.trans h (ends_append lead text)

theorem Ends.append {tail text : String} (h : Ends tail text) (rest : String) :
    Ends (tail ++ rest) (text ++ rest) := by
  obtain ⟨lead, hlead⟩ := h
  refine ⟨lead, ?_⟩
  rw [String.toList_append, String.toList_append, ← List.append_assoc, hlead]

/-- How lines end that set a variable to `None`. -/
def noneTails : List String := [" = None;", " = None,"]

theorem SetsNone.ends {name text : String} (h : SetsNone name text) :
    ∃ tail ∈ noneTails, Ends tail text := by
  rcases h.1 with rfl | rfl
  · exact ⟨_, List.mem_cons_self, ends_append _ _⟩
  · exact ⟨_, List.mem_cons_of_mem _ List.mem_cons_self, ends_append _ _⟩

theorem not_ends_both {text : String} (h : Ends " = None;" text) : ¬Ends " = None," text :=
  fun h' => absurd (List.suffix_or_suffix_of_suffix h h') (by decide)

theorem setsNone_statement {name other : String} (h : SetsNone name (other ++ " = None;")) :
    name = other := by
  rcases h.1 with heq | heq
  · exact ((String.append_left_inj _).1 heq).symm
  · exact absurd (heq ▸ ends_append _ _) (not_ends_both (ends_append other _))

theorem setsNone_arm {name other : String}
    (h : SetsNone name ("None => " ++ other ++ " = None,")) : name = other := by
  rcases h.1 with heq | heq
  · exact absurd (ends_append _ _) (not_ends_both (heq ▸ ends_append name _))
  · exact ((String.append_right_inj _).1 ((String.append_left_inj _).1 heq)).symm

instance (tail text : String) : Decidable (Ends tail text) :=
  inferInstanceAs (Decidable (_ <:+ _))

/-- A line that neither declares a variable nor sets one to `None`. -/
structure Idle (text : String) : Prop where
  declares : ¬Starts "let " text
  setsNone : ∀ name, ¬SetsNone name text

theorem not_starts_let (head : String) {text : String} (h : Starts head text)
    (hhead : Apart [head] ["let "]) : ¬Starts "let " text := by
  intro hlet
  have hneither := hhead head List.mem_cons_self _ List.mem_cons_self
  exact (List.prefix_or_prefix_of_prefix h hlet).elim hneither.1 hneither.2

theorem not_setsNone (tail : String) {text : String} (h : Ends tail text)
    (htail : ∀ none ∈ noneTails, ¬Ends tail none ∧ ¬Ends none tail) (name : String) :
    ¬SetsNone name text := by
  intro hsets
  obtain ⟨none, hnone, hends⟩ := hsets.ends
  exact (List.suffix_or_suffix_of_suffix h hends).elim (htail none hnone).1 (htail none hnone).2

/-- A line is idle by its head and its tail. -/
theorem idle_of (head tail : String) {text : String} (h : Starts head text) (h' : Ends tail text)
    (hhead : Apart [head] ["let "])
    (htail : ∀ none ∈ noneTails, ¬Ends tail none ∧ ¬Ends none tail) : Idle text :=
  ⟨not_starts_let head h hhead, not_setsNone tail h' htail⟩

theorem Redeclares.starts {name text : String} (h : Redeclares name text) : Starts "let " text := by
  have hlet : Starts "let " ("let " ++ (name ++ ": ")) := starts_append _ _
  rw [← String.append_assoc] at hlet
  exact List.IsPrefix.trans hlet h

theorem redeclares_declaration (name : String) (t : TypeExpr) :
    Redeclares name (declaration name t) := (starts_append ("let " ++ name ++ ": ") _).append _

theorem takeWhile_colon {chars : List Char} (h : ':' ∉ chars) (rest : List Char) :
    (chars ++ ':' :: rest).takeWhile (· ≠ ':') = chars := by
  have hplain : ∀ c ∈ chars, decide (c ≠ ':') = true := by
    intro c hc
    simpa using fun hcolon : c = ':' => h (hcolon ▸ hc)
  rw [List.takeWhile_append_of_pos hplain]
  simp

/-- A declaration of another variable. Each name reaches up to the colon. -/
theorem not_redeclares_declaration {name other : String} {t : TypeExpr} (hname : ':' ∉ name.toList)
    (hother : ':' ∉ other.toList) (hne : name ≠ other) :
    ¬Redeclares name (declaration other t) := by
  rintro ⟨rest, hrest⟩
  simp only [declaration, String.toList_append, List.append_assoc,
    List.append_cancel_left_eq] at hrest
  have hcolons : name.toList ++ ':' :: ' ' :: rest =
      other.toList ++ ':' :: ' ' :: (t.display.toList ++ ";".toList) := hrest
  have hsame := congrArg (List.takeWhile (· ≠ ':')) hcolons
  rw [takeWhile_colon hname, takeWhile_colon hother] at hsame
  exact hne (String.toList_inj.1 hsame)

namespace Emit

variable {α β : Type}

/-- The texts of the lines that an action adds. -/
def texts (act : Emit α) (s : Scope) : List String := (written act s).map Prod.snd

theorem texts_eq {act : Emit α} {s : Scope} {added : List Line}
    (h : (act.run s).2.block.lines = s.block.lines ++ added) :
    texts act s = added.map Prod.snd := by
  rw [texts, written, h, List.drop_left]

/-- No request for a name is forgotten between the scopes. -/
def Later (s s' : Scope) : Prop := ∀ base, asked s.locals base ≤ asked s'.locals base

theorem Later.trans {s s' s'' : Scope} (h : Later s s') (h' : Later s' s'') : Later s s'' :=
  fun base => (h base).trans (h' base)

theorem later_fresh (wish : String) (s : Scope) : Later s ((fresh wish).run s).2 := by
  intro base
  rw [fresh_run, asked_countRequest]
  exact Nat.le_add_right _ _

/-- What the names of converted values, and of what they are made from, are made of. -/
def innerBases : List String := ["_tmp", "_value", "_converted"]

/-- The name is not given to a converted value any more. -/
structure Settled (s : Scope) (name : String) : Prop where
  lead : Starts "_" name
  plain : ':' ∉ name.toList
  given : ∀ base ∈ innerBases, ∀ n, name = numbered base n → n < asked s.locals base

section Settled

variable {s s' : Scope} {name wish : String}

theorem Settled.mono (h : Settled s name) (hlater : Later s s') : Settled s' name :=
  { h with given := fun base hbase n hn => (h.given base hbase n hn).trans_le (hlater base) }

theorem starts_given (wish : String) (n : Nat) : Starts "_" (numbered (localBase wish) n) :=
  List.IsPrefix.trans (starts_append "_" _) (starts_numbered _ n)

/-- A new name is none of those that were settled before. -/
theorem Settled.ne_fresh (h : Settled s name) (hwish : localBase wish ∈ innerBases) :
    name ≠ ((fresh wish).run s).1 := by
  rintro rfl
  rw [fresh_run] at h
  exact absurd (h.given _ hwish _ rfl) (Nat.lt_irrefl _)

/-- A base with a single underscore is no numbered form of one that has any. -/
theorem ne_numbered_of_count {base other : String} (hbase : base.toList.count '_' = 1)
    (hother : 0 < other.toList.count '_') {n : Nat} (hn : 0 < n) : base ≠ numbered other n := by
  rintro rfl
  rw [toList_numbered_pos hn, List.count_append, List.count_cons_self] at hbase
  omega

theorem count_of_mem_innerBases : ∀ base ∈ innerBases, base.toList.count '_' = 1 := by
  decide

theorem settled_fresh (hwish : localBase wish ∈ innerBases) :
    Settled ((fresh wish).run s).2 ((fresh wish).run s).1 := by
  have hcolon : ∀ base ∈ innerBases, ':' ∉ base.toList := by decide
  rw [fresh_run]
  refine ⟨starts_given _ _, not_mem_numbered (hcolon _ hwish) (by decide) (by decide) _,
    fun base hbase n hn => ?_⟩
  have hcount := count_of_mem_innerBases base hbase
  have hcount' := count_of_mem_innerBases _ hwish
  rcases numbered_eq_iff.1 hn with ⟨rfl, rfl⟩ | ⟨-, hpos, hb⟩ | ⟨-, hpos, hb⟩
  · rw [asked_countRequest, if_pos rfl]
    exact Nat.lt_succ_self _
  · exact absurd hb (ne_numbered_of_count hcount' (by omega) hpos)
  · exact absurd hb (ne_numbered_of_count hcount (by omega) hpos)

/-- The name for a field is not given to a converted value, unless a number is the name of the
field. -/
theorem settled_of_field {fragment : String} (hcolon : ':' ∉ fragment.toList)
    (hnumber : ∀ n : Nat, fragment ≠ toString n) (n : Nat) (s : Scope) :
    Settled s (numbered (localBase ("tmp_" ++ fragment)) n) := by
  have hchars : (localBase ("tmp_" ++ fragment)).toList = "_tmp_".toList ++ fragment.toList := by
    have hbase : localBase ("tmp_" ++ fragment) = "_tmp_" ++ fragment :=
      localBase_append (by decide) _
    rw [hbase, String.toList_append]
  have hcount : 1 < (localBase ("tmp_" ++ fragment)).toList.count '_' := by
    rw [hchars, List.count_append]
    have : "_tmp_".toList.count '_' = 2 := by decide
    omega
  refine ⟨starts_given _ _, not_mem_numbered ?_ (by decide) (by decide) n,
    fun base hmem m hm => ?_⟩
  · rw [hchars, List.mem_append, not_or]
    exact ⟨by decide, hcolon⟩
  · have hone := count_of_mem_innerBases base hmem
    rcases numbered_eq_iff.1 hm with ⟨rfl, -⟩ | ⟨-, hpos, hb⟩ | ⟨-, hpos, hb⟩
    · omega
    · -- Behind `_tmp_` stands the number, which is no name of a field.
      have hlist := congrArg String.toList hb
      rw [hchars, toList_numbered_pos hpos] at hlist
      simp only [innerBases, List.mem_cons, List.not_mem_nil, or_false] at hmem
      rcases hmem with rfl | rfl | rfl
      · have hdigits : fragment.toList = (toString m).toList :=
          List.append_cancel_left (show "_tmp_".toList ++ fragment.toList = "_tmp_".toList ++ _ from
            hlist)
        exact absurd (String.toList_inj.1 hdigits) (hnumber m)
      all_goals exact absurd (List.cons.inj (List.cons.inj hlist).2).1 (by decide)
    · exact absurd hb (ne_numbered_of_count hone (by omega) hpos)

end Settled

end Emit

/-- What is known of a name. -/
inductive Standing where
  | unknown
  /-- Given to a variable that is not declared yet. -/
  | given
  | declared (optional : Bool)
deriving DecidableEq

/-- What is known of each name. -/
abbrev Names := String → Standing

namespace Names

open Emit

/-- Nothing is known. -/
def empty : Names := fun _ => .unknown

def give (names : Names) (name : String) : Names := Function.update names name .given

def declare (names : Names) (name : String) (t : TypeExpr) : Names :=
  Function.update names name (.declared t.isOption)

section Update

variable {names : Names} {name other : String} {t : TypeExpr} {b : Bool}

@[simp] theorem give_self : names.give name name = .given := Function.update_self ..

@[simp] theorem declare_self : names.declare name t name = .declared t.isOption :=
  Function.update_self ..

theorem give_of_ne (h : other ≠ name) : names.give name other = names other :=
  Function.update_of_ne h ..

theorem declare_of_ne (h : other ≠ name) : names.declare name t other = names other :=
  Function.update_of_ne h ..

theorem ne_unknown (h : names name = .declared b) : names name ≠ .unknown := by simp [h]

/-- What is declared stays so when another name is given. -/
theorem give_declared (hname : names name = .unknown) (h : names other = .declared b) :
    names.give name other = .declared b := by
  rwa [give_of_ne]
  rintro rfl
  simp [hname] at h

theorem declare_declared (hname : names name = .given) (h : names other = .declared b) :
    names.declare name t other = .declared b := by
  rwa [declare_of_ne]
  rintro rfl
  simp [hname] at h

end Update

/-- The names that are known are not given again. -/
def GivenIn (names : Names) (s : Scope) : Prop :=
  ∀ name, names name ≠ .unknown → Settled s name

/-- The variables that are known to be optional were last declared so. -/
def DeclaredIn (names : Names) (before : List String) : Prop :=
  ∀ name, names name = .declared true → ∃ t, t.isOption = true ∧ DeclaredAs name t before

/-- The lines declare no known variable again, and they set only variables to `None` that are
optional. -/
structure Fits (names : Names) (texts : List String) : Prop where
  keeps : ∀ name b, names name = .declared b → ∀ text ∈ texts, ¬Redeclares name text
  fits : ∀ before, names.DeclaredIn before → NoneFits before texts

section Fits

variable {names : Names} {name text : String} {xs ys before : List String} {b : Bool}

theorem DeclaredIn.append (h : names.DeclaredIn before) (hxs : names.Fits xs) :
    names.DeclaredIn (before ++ xs) := by
  intro name hname
  obtain ⟨t, ht, hdeclared⟩ := h name hname
  exact ⟨t, ht, hdeclared.append (hxs.keeps name true hname)⟩

theorem fits_nil : names.Fits [] where
  keeps _ _ _ := List.forall_mem_nil _
  fits _ _ := noneFits_nil

theorem Fits.append (hxs : names.Fits xs) (hys : names.Fits ys) : names.Fits (xs ++ ys) where
  keeps name b hname := List.forall_mem_append.2 ⟨hxs.keeps name b hname, hys.keeps name b hname⟩
  fits before h := (hxs.fits before h).append (hys.fits _ (h.append hxs))

theorem fits_of_idle (h : Idle text) : names.Fits [text] where
  keeps _ _ _ := List.forall_mem_singleton.2 fun hagain => h.declares hagain.starts
  fits _ _ := noneFits_singleton fun name hnone => absurd hnone (h.setsNone name)

theorem fits_empty (h : ∀ name, ¬SetsNone name text) : empty.Fits [text] where
  keeps _ _ := nofun
  fits _ _ := noneFits_singleton fun name hnone => absurd hnone (h name)

/-- A line that sets an optional variable to `None`. -/
theorem fits_none (hname : names name = .declared true) (hlet : ¬Starts "let " text)
    (honly : ∀ other, SetsNone other text → other = name) : names.Fits [text] where
  keeps _ _ _ := List.forall_mem_singleton.2 fun hagain => hlet hagain.starts
  fits _ h := noneFits_singleton fun other hnone => honly other hnone ▸ h name hname

/-- A variable that is given but not declared is declared, and what is known of it stands behind. -/
theorem Fits.declared {t : TypeExpr} (hcolon : ∀ name, names name ≠ .unknown → ':' ∉ name.toList)
    (hname : names name = .given) (h : (names.declare name t).Fits xs) :
    names.Fits (declaration name t :: xs) := by
  have hother : ∀ other b, names other = .declared b → ¬Redeclares other (declaration name t) := by
    intro other b hother
    refine not_redeclares_declaration (hcolon other (ne_unknown hother))
      (hcolon name (by simp [hname])) ?_
    rintro rfl
    simp [hname] at hother
  constructor
  · exact fun other b hdeclared => List.forall_mem_cons.2
      ⟨hother other b hdeclared, h.keeps other b (declare_declared hname hdeclared)⟩
  · intro before hbefore
    have hfirst : NoneFits before [declaration name t] :=
      noneFits_singleton fun other hnone =>
        absurd (redeclares_declaration name t).starts hnone.2
    refine hfirst.append (h.fits _ fun other hoptional => ?_)
    by_cases hne : other = name
    · subst hne
      rw [declare_self] at hoptional
      exact ⟨t, Standing.declared.inj hoptional, declaredAs_declaration⟩
    · rw [declare_of_ne hne] at hoptional
      obtain ⟨u, hu, hdeclared⟩ := hbefore other hoptional
      exact ⟨u, hu, hdeclared.append (List.forall_mem_singleton.2 (hother other _ hoptional))⟩

/-- What is known of a name that was not known does not concern the others. -/
theorem Fits.given (hname : names name = .unknown) (h : (names.give name).Fits xs) :
    names.Fits xs where
  keeps other b hdeclared := h.keeps other b (give_declared hname hdeclared)
  fits before hbefore := by
    refine h.fits before fun other hoptional => hbefore other ?_
    by_cases hne : other = name
    · simp [hne] at hoptional
    · rwa [give_of_ne hne] at hoptional

end Fits

theorem GivenIn.mono {names : Names} {s s' : Scope} (h : names.GivenIn s) (hlater : Later s s') :
    names.GivenIn s' := fun name hname => (h name hname).mono hlater

end Names

/-- The action declares no known variable again, and it sets only variables to `None` that are
optional. -/
def Emit.Careful {α : Type} (names : Names) (act : Emit α) : Prop :=
  ∀ s, names.GivenIn s → Later s (act.run s).2 ∧ ∃ added,
    (act.run s).2.block.lines = s.block.lines ++ added ∧ names.Fits (added.map Prod.snd)

namespace Emit

section Careful

variable {α β : Type} {names : Names} {act : Emit α} {f : α → Emit β} {name text : String}

theorem Careful.fits (h : Careful names act) {s : Scope} (hs : names.GivenIn s) :
    names.Fits (texts act s) := by
  obtain ⟨-, added, hlines, hfits⟩ := h s hs
  rwa [texts_eq hlines]

theorem Careful.bind (hact : Careful names act) (hf : ∀ a, Careful names (f a)) :
    Careful names (act >>= f) := by
  intro s hs
  obtain ⟨hlater, xs, hxs, hfits⟩ := hact s hs
  obtain ⟨hlater', ys, hys, hfits'⟩ := hf (act.run s).1 (act.run s).2 (hs.mono hlater)
  refine ⟨hlater.trans hlater', xs ++ ys, ?_, ?_⟩
  · rw [hxs, List.append_assoc] at hys
    exact hys
  · rw [List.map_append]
    exact hfits.append hfits'

/-- An action that neither adds a line nor asks for a name. -/
theorem careful_quiet (hblock : ∀ s, (act.run s).2.block = s.block)
    (hlocals : ∀ s, (act.run s).2.locals = s.locals) : Careful names act := by
  refine fun s _ => ⟨fun base => by rw [hlocals], [], by rw [hblock, List.append_nil], ?_⟩
  exact Names.fits_nil

theorem careful_pure (a : α) : Careful names (pure a) := careful_quiet (fun _ => rfl) fun _ => rfl

theorem careful_receiver : Careful names receiver := careful_quiet (fun _ => rfl) fun _ => rfl

theorem careful_onMembers (act : StateM ClassMembers α) : Careful names (onMembers act) :=
  careful_quiet (fun _ => rfl) fun _ => rfl

theorem Careful.mapM {f : α → Emit β} {as : List α} (hf : ∀ a ∈ as, Careful names (f a)) :
    Careful names (as.mapM f) := by
  induction as with
  | nil => exact careful_pure []
  | cons a as ih =>
    rw [List.mapM_cons]
    obtain ⟨ha, has⟩ := List.forall_mem_cons.1 hf
    exact ha.bind fun b => (ih has).bind fun bs => careful_pure (b :: bs)

/-- A change of the block that adds lines. -/
theorem careful_onBlock {g : Block → Block} {added : List String}
    (hlines : ∀ b : Block, ∃ lines : List Line,
      (g b).lines = b.lines ++ lines ∧ lines.map Prod.snd = added)
    (h : ∀ s, names.GivenIn s → names.Fits added) : Careful names (onBlock g) := by
  intro s hs
  obtain ⟨lines, hadded, rfl⟩ := hlines s.block
  exact ⟨fun _ => Nat.le_refl _, lines, hadded, h s hs⟩

theorem careful_line (h : ∀ s, names.GivenIn s → names.Fits [text]) : Careful names (line text) :=
  careful_onBlock (fun b => ⟨[(b.depth, text)], rfl, rfl⟩) h

theorem careful_statement (h : ∀ s, names.GivenIn s → names.Fits [text ++ ";"]) :
    Careful names (statement text) := careful_line h

theorem careful_enter (h : Idle (text ++ " \x7b")) : Careful names (enter text) :=
  careful_onBlock (fun b => ⟨[(b.depth, text ++ " \x7b")], rfl, rfl⟩)
    fun _ _ => Names.fits_of_idle h

theorem careful_next (h : Idle ("\x7d " ++ text ++ " \x7b")) : Careful names (next text) :=
  careful_onBlock (fun b => ⟨[(b.depth - 1, "\x7d " ++ text ++ " \x7b")], rfl, rfl⟩)
    fun _ _ => Names.fits_of_idle h

theorem careful_leave : Careful names leave :=
  careful_onBlock (fun b => ⟨[(b.depth - 1, "\x7d")], rfl, rfl⟩)
    fun _ _ => Names.fits_of_idle (idle_of "\x7d" "\x7d" (by decide) (by decide)
      (by decide) (by decide))

theorem careful_splice {code : Block} (h : names.Fits (code.lines.map Prod.snd)) :
    Careful names (splice code) :=
  careful_onBlock (fun b => ⟨sunken b.depth code.lines, rfl, by simp [sunken]⟩) fun _ _ => h

theorem careful_fork {body : Emit Unit} {k : Block → Emit β} (hbody : Careful names body)
    (hk : ∀ code : Block, names.Fits (code.lines.map Prod.snd) → Careful names (k code)) :
    Careful names (fork body >>= k) := by
  intro s hs
  -- The body is written first, so the names that it is given count for what follows.
  obtain ⟨hlater, added, hlines, hfits⟩ :=
    hbody { s with block := {} } (hs.mono fun _ => Nat.le_refl _)
  rw [List.nil_append] at hlines
  obtain ⟨hlater', hrest⟩ := hk ((fork body).run s).1 (hlines ▸ hfits) ((fork body).run s).2
    (hs.mono hlater)
  exact ⟨hlater.trans hlater', hrest⟩

/-- A request for a name. -/
theorem careful_fresh {wish : String} {f : String → Emit β}
    (hsettled : ∀ s, Settled ((fresh wish).run s).2 ((fresh wish).run s).1)
    (hnew : ∀ s, names.GivenIn s → names ((fresh wish).run s).1 = .unknown)
    (hf : ∀ name, names name = .unknown → Careful (names.give name) (f name)) :
    Careful names (fresh wish >>= f) := by
  intro s hs
  have hunknown := hnew s hs
  have hlater := later_fresh wish s
  have hgiven : (names.give ((fresh wish).run s).1).GivenIn ((fresh wish).run s).2 := by
    intro name hname
    by_cases h : name = ((fresh wish).run s).1
    · exact h ▸ hsettled s
    · rw [Names.give_of_ne h] at hname
      exact (hs name hname).mono hlater
  obtain ⟨hlater', added, hlines, hfits⟩ := hf _ hunknown _ hgiven
  exact ⟨hlater.trans hlater', added, hlines, hfits.given hunknown⟩

/-- A request for a name of which nothing needs to be known. -/
theorem careful_request (wish : String) : Careful names (fresh wish) := fun s _ =>
  ⟨later_fresh wish s, [], by rw [fresh_run, List.append_nil], Names.fits_nil⟩

/-- A request for the name of a converted value, or of what one is made from. -/
theorem careful_fresh_inner {wish : String} {f : String → Emit β}
    (hwish : localBase wish ∈ innerBases)
    (hf : ∀ name, names name = .unknown → Careful (names.give name) (f name)) :
    Careful names (fresh wish >>= f) := by
  refine careful_fresh (fun s => settled_fresh hwish) (fun s hs => ?_) hf
  by_contra hknown
  exact (hs _ hknown).ne_fresh hwish rfl

/-- The declaration of a variable. -/
theorem careful_declare {t : TypeExpr} {rest : Emit β} (hname : names name = .given)
    (hrest : Careful (names.declare name t) rest) :
    Careful names (statement ("let " ++ name ++ ": " ++ t.display) >>= fun _ => rest) := by
  intro s hs
  have hgiven : (names.declare name t).GivenIn
      ((statement ("let " ++ name ++ ": " ++ t.display)).run s).2 := by
    intro other hother
    refine (hs other ?_).mono fun _ => Nat.le_refl _
    by_cases h : other = name
    · simp [h, hname]
    · rwa [Names.declare_of_ne h] at hother
  obtain ⟨hlater, added, hlines, hfits⟩ := hrest _ hgiven
  refine ⟨hlater, (s.block.depth, declaration name t) :: added, ?_, ?_⟩
  · exact hlines.trans (List.append_assoc _ _ _)
  · exact hfits.declared (fun other hother => (hs other hother).plain) hname

theorem starts_of_known {s : Scope} {lead : String} (hs : names.GivenIn s)
    (hname : names name ≠ .unknown) (hlead : Starts name lead) : Starts "_" lead :=
  List.IsPrefix.trans (hs name hname).lead hlead

/-- A statement about a known variable that does not set it to `None`. -/
theorem careful_assign {lead tail : String} (hname : names name ≠ .unknown)
    (hlead : Starts name lead)
    (htail : ∀ none ∈ noneTails, ¬Ends (tail ++ ";") none ∧ ¬Ends none (tail ++ ";")) :
    Careful names (statement (lead ++ tail)) := by
  refine careful_statement fun s hs => Names.fits_of_idle ?_
  have hstarts := (starts_of_known hs hname hlead).append (tail ++ ";")
  rw [String.append_assoc]
  exact idle_of "_" _ hstarts (ends_append _ _) (by decide) htail

/-- A statement that sets an optional variable to `None`. -/
theorem careful_absent (hname : names name = .declared true) :
    Careful names (statement (name ++ " = None")) := by
  refine careful_statement fun s hs => ?_
  rw [String.append_assoc]
  refine Names.fits_none hname (not_starts_let "_" ?_ (by decide)) fun other =>
    setsNone_statement
  exact starts_of_known hs (by simp [hname]) (starts_append name _)

theorem careful_absent_arm (hname : names name = .declared true) :
    Careful names (line ("None => " ++ name ++ " = None,")) := by
  refine careful_line fun s hs => ?_
  refine Names.fits_none hname (not_starts_let "None => " ?_ (by decide)) fun other =>
    setsNone_arm
  exact (starts_append "None => " name).append _

end Careful

end Emit

end DataAccess.Code
