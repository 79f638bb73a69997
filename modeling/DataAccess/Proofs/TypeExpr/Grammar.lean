import DataAccess.Proofs.TypeExpr.Display
import DataAccess.TypeExpr.Syntax

/-!
The grammar of types. A type is a list of symbols, and a text spells the symbols in order with blanks
anywhere around them. Reading accepts exactly the texts that spell a type (`parseChars_eq_ok_iff`), and
the canonical text of a type spells the symbols it was read from.
-/

set_option autoImplicit false

namespace DataAccess.TypeExpr

open Syntax

/-! Symbols and the texts that spell them. -/

/-- The punctuation of types. -/
inductive Mark where
  | openParen
  | closeParen
  | colon
  | openAngle
  | comma
  | closeAngle
deriving DecidableEq, Repr

def Mark.char : Mark → Char
  | openParen => '('
  | closeParen => ')'
  | colon => ':'
  | openAngle => '<'
  | comma => ','
  | closeAngle => '>'

/-- A run of letters, digits and underscores. -/
structure Segment where
  text : List Char
  ne_nil : text ≠ []
  isSegmentChar : ∀ c ∈ text, Syntax.isSegmentChar c = true

inductive Symbol where
  | mark (m : Mark)
  | segment (s : Segment)

def Symbol.chars : Symbol → List Char
  | mark m => [m.char]
  | segment s => s.text

/-- A text spells symbols in order, with any blanks before, between and after them. -/
inductive Spells : List Symbol → List Char → Prop where
  | nil : Spells [] []
  | blank {xs : List Symbol} {c : Char} {s : List Char} (hc : Text.isBlank c = true)
    (h : Spells xs s) : Spells xs (c :: s)
  | cons (x : Symbol) {xs : List Symbol} {s : List Char} (h : Spells xs s) :
    Spells (x :: xs) (x.chars ++ s)

/-- The symbols of a path, and its name: segments that are joined by pairs of colons. -/
inductive PathOf : List Symbol → List Char → Prop where
  | last (s : Segment) : PathOf [.segment s] s.text
  | more (s : Segment) {xs : List Symbol} {name : List Char} (rest : PathOf xs name) :
    PathOf (.segment s :: .mark .colon :: .mark .colon :: xs) (s.text ++ ':' :: ':' :: name)

mutual

/-- The symbols of a type: a pair of parentheses, or a path with arguments in angle brackets, if there
are any. -/
inductive TypeOf : List Symbol → TypeExpr → Prop where
  | unit : TypeOf [.mark .openParen, .mark .closeParen] .unit
  | plain {xs : List Symbol} {name : List Char} (path : PathOf xs name) :
    TypeOf xs (.simple (String.ofList name))
  | applied {xs ys : List Symbol} {name : List Char} {args : List TypeExpr} (path : PathOf xs name)
    (arguments : ArgumentsOf ys args) :
    TypeOf (xs ++ .mark .openAngle :: (ys ++ [.mark .closeAngle])) (.mk (String.ofList name) args)

/-- The symbols of types that are separated by commas. -/
inductive ArgumentsOf : List Symbol → List TypeExpr → Prop where
  | last {xs : List Symbol} {t : TypeExpr} (type : TypeOf xs t) : ArgumentsOf xs [t]
  | more {xs ys : List Symbol} {t : TypeExpr} {ts : List TypeExpr} (type : TypeOf xs t)
    (rest : ArgumentsOf ys ts) : ArgumentsOf (xs ++ .mark .comma :: ys) (t :: ts)

end

theorem Mark.char_injective : Function.Injective Mark.char := by
  intro m m' h
  cases m <;> cases m' <;> first | rfl | exact absurd h (by decide)

theorem Mark.isBlank_char (m : Mark) : Text.isBlank m.char = false := by
  cases m <;> decide +kernel

theorem Mark.isSegmentChar_char (m : Mark) : isSegmentChar m.char = false := by
  cases m <;> decide +kernel

/-- The code points of blanks. -/
def blankCodes : List Nat :=
  32 :: 133 :: 160 :: 5760 :: 8239 :: 8287 :: 12288 ::
    (List.range' 9 5 ++ List.range' 8192 11 ++ List.range' 8232 2)

theorem mem_blankCodes {c : Char} (h : Text.isBlank c = true) : c.toNat ∈ blankCodes := by
  unfold Text.isBlank at h
  split at h
  · simp only [Bool.or_eq_true, Bool.and_eq_true, decide_eq_true_eq] at h
    obtain rfl | ⟨hlow, hhigh⟩ := h
    · decide
    · have hlow' : 9 ≤ c.toNat := hlow
      have hhigh' : c.toNat ≤ 13 := hhigh
      simp only [blankCodes, List.mem_cons, List.mem_append, List.mem_range'_1]
      omega
  · simp only [Text.CharTable.Ranges.has, Text.CharTable.whiteSpace, List.any_cons, List.any_nil,
      Bool.or_eq_true, Bool.and_eq_true, decide_eq_true_eq, Bool.false_eq_true, or_false] at h
    simp only [blankCodes, List.mem_cons, List.mem_append, List.mem_range'_1]
    omega

/-- Blanks are neither letters nor digits. -/
theorem isSegmentChar_of_isBlank {c : Char} (h : Text.isBlank c = true) :
    isSegmentChar c = false := by
  have hcodes : ∀ n ∈ blankCodes, isSegmentChar (Char.ofNat n) = false := by decide +kernel
  rw [← Char.ofNat_toNat c]
  exact hcodes _ (mem_blankCodes h)

theorem Symbol.isBlank_of_mem {x : Symbol} {c : Char} (h : c ∈ x.chars) : Text.isBlank c = false := by
  cases x with
  | mark m =>
    obtain rfl := List.mem_singleton.1 h
    exact m.isBlank_char
  | segment g =>
    refine eq_false_of_ne_true fun hblank => ?_
    have hsegment := g.isSegmentChar c h
    rw [isSegmentChar_of_isBlank hblank] at hsegment
    cases hsegment

theorem Symbol.chars_ne_nil (x : Symbol) : x.chars ≠ [] := by
  cases x with
  | mark m => exact List.cons_ne_nil _ _
  | segment g => exact g.ne_nil

namespace Spells

variable {xs ys : List Symbol} {x : Symbol} {s : List Char}

theorem of_skipBlanks (h : Spells xs (skipBlanks s)) : Spells xs s := by
  induction s with
  | nil => exact h
  | cons c s ih =>
    by_cases hc : Text.isBlank c = true
    · rw [skipBlanks, List.dropWhile_cons_of_pos hc] at h
      exact .blank hc (ih h)
    · rwa [skipBlanks, List.dropWhile_cons_of_neg hc] at h

theorem skipBlanks_of_nil (h : Spells [] s) : skipBlanks s = [] := by
  generalize hxs : [] = xs at h
  induction h with
  | nil => rfl
  | blank hc _ ih => rw [skipBlanks, List.dropWhile_cons_of_pos hc, ← skipBlanks, ih hxs]
  | cons => cases hxs

/-- Behind blanks the text starts with the first symbol. -/
theorem exists_skipBlanks (h : Spells (x :: xs) s) :
    ∃ rest, skipBlanks s = x.chars ++ rest ∧ Spells xs rest := by
  generalize hall : x :: xs = all at h
  induction h with
  | nil => cases hall
  | blank hc _ ih =>
    obtain ⟨rest, hrest, hspells⟩ := ih hall
    exact ⟨rest, by rw [skipBlanks, List.dropWhile_cons_of_pos hc, ← skipBlanks, hrest], hspells⟩
  | @cons y ys s h =>
    obtain ⟨rfl, rfl⟩ := List.cons.inj hall
    obtain ⟨c, cs, hcs⟩ := List.exists_cons_of_ne_nil x.chars_ne_nil
    have hc : Text.isBlank c = false := x.isBlank_of_mem (hcs ▸ List.mem_cons_self)
    refine ⟨s, ?_, h⟩
    rw [skipBlanks, hcs, List.cons_append, List.dropWhile_cons_of_neg (ne_true_of_eq_false hc)]

/-- No segment goes on in front of nothing, of a blank or of a mark. -/
theorem head?_of_mark (h : Spells ys s) (hys : ∀ y ∈ ys.head?, ∃ m, y = .mark m) :
    ∀ c ∈ s.head?, isSegmentChar c = false := by
  intro c hc
  cases h with
  | nil => cases hc
  | blank hblank h =>
    obtain rfl := Option.some.inj hc
    exact isSegmentChar_of_isBlank hblank
  | cons y h =>
    obtain ⟨m, rfl⟩ := hys y rfl
    obtain rfl := Option.some.inj hc
    exact m.isSegmentChar_char

end Spells

/-! Taking a symbol. -/

section Eat

variable {m : Mark} {c : Char} {s rest : List Char} {ys : List Symbol}

theorem skipBlanks_of_eat? {r : Shorter s} (h : eat? c s = some r) : skipBlanks s = c :: r.val := by
  unfold eat? at h
  split at h
  · cases h
  · rename_i d rest hskip
    split at h
    · rename_i hd
      obtain rfl := Option.some.inj h
      exact hskip.trans (congrArg (· :: rest) hd)
    · cases h

theorem eat?_of_skipBlanks (h : skipBlanks s = c :: rest) : ∃ r, eat? c s = some r ∧ r.val = rest := by
  unfold eat?
  split
  · rename_i hskip
    cases h.symm.trans hskip
  · rename_i d more hskip
    obtain ⟨rfl, rfl⟩ := List.cons.inj (h.symm.trans hskip)
    exact ⟨_, if_pos rfl, rfl⟩

theorem eat?_eq_none (h : (skipBlanks s).head? ≠ some c) : eat? c s = none := by
  cases heat : eat? c s with
  | none => rfl
  | some r =>
    rw [skipBlanks_of_eat? heat] at h
    exact absurd rfl h

theorem Spells.eat? (h : Spells (.mark m :: ys) s) :
    ∃ r, eat? m.char s = some r ∧ Spells ys r.val := by
  obtain ⟨rest, hskip, hspells⟩ := h.exists_skipBlanks
  have hmark : skipBlanks s = m.char :: rest := hskip
  obtain ⟨r, hr, rfl⟩ := eat?_of_skipBlanks hmark
  exact ⟨r, hr, hspells⟩

theorem Spells.eat?_eq_none (h : Spells ys s) (hys : ys.head? ≠ some (.mark m)) :
    Syntax.eat? m.char s = none := by
  refine TypeExpr.eat?_eq_none fun hhead => ?_
  cases ys with
  | nil =>
    rw [h.skipBlanks_of_nil] at hhead
    cases hhead
  | cons y ys =>
    obtain ⟨rest, hskip, -⟩ := h.exists_skipBlanks
    rw [hskip] at hhead
    cases y with
    | mark m' =>
      obtain rfl := Mark.char_injective (Option.some.inj hhead)
      exact hys rfl
    | segment g =>
      obtain ⟨d, ds, hds⟩ := List.exists_cons_of_ne_nil g.ne_nil
      have hd := g.isSegmentChar d (hds ▸ List.mem_cons_self)
      rw [Symbol.chars, hds] at hhead
      obtain rfl := Option.some.inj hhead
      rw [m.isSegmentChar_char] at hd
      cases hd

theorem spells_of_eat? {r : Shorter s} (h : eat? m.char s = some r) (hr : Spells ys r.val) :
    Spells (.mark m :: ys) s := by
  refine .of_skipBlanks ?_
  rw [skipBlanks_of_eat? h]
  exact .cons (.mark m) hr

end Eat

/-! Taking a segment. -/

section Segments

variable {s : List Char} {ys : List Symbol} {g : Segment}

/-- The segment a text starts with. -/
def leadingSegment (s : List Char) (h : s.takeWhile isSegmentChar ≠ []) : Segment where
  text := s.takeWhile isSegmentChar
  ne_nil := h
  isSegmentChar c hc := List.all_eq_true.1 List.all_takeWhile c hc

theorem spells_leadingSegment (h : (skipBlanks s).takeWhile isSegmentChar ≠ [])
    (hrest : Spells ys ((skipBlanks s).dropWhile isSegmentChar)) :
    Spells (.segment (leadingSegment _ h) :: ys) s := by
  have hspells := Spells.cons (.segment (leadingSegment _ h)) hrest
  rw [Symbol.chars, leadingSegment, List.takeWhile_append_dropWhile] at hspells
  exact hspells.of_skipBlanks

theorem Spells.segment (h : Spells (.segment g :: ys) s) (hys : ∀ y ∈ ys.head?, ∃ m, y = .mark m) :
    (skipBlanks s).takeWhile isSegmentChar = g.text ∧
      Spells ys ((skipBlanks s).dropWhile isSegmentChar) := by
  obtain ⟨rest, hskip, hrest⟩ := h.exists_skipBlanks
  have hstop := hrest.head?_of_mark hys
  have htake : rest.takeWhile isSegmentChar = [] := by
    cases rest with
    | nil => rfl
    | cons c rest => exact List.takeWhile_cons_of_neg (ne_true_of_eq_false (hstop c rfl))
  have hdrop : rest.dropWhile isSegmentChar = rest := by
    have happ := List.takeWhile_append_dropWhile (p := isSegmentChar) (l := rest)
    rwa [htake, List.nil_append] at happ
  rw [hskip, Symbol.chars, List.takeWhile_append_of_pos g.isSegmentChar,
    List.dropWhile_append_of_pos g.isSegmentChar, htake, hdrop, List.append_nil]
  exact ⟨rfl, hrest⟩

end Segments

/-! What was read spells the symbols of the type that is returned. -/

theorem exists_pathOf {s name : List Char} {r : Shorter s} (h : path s = .ok (name, r)) :
    ∃ xs, PathOf xs name ∧ ∀ ys, Spells ys r.val → Spells (xs ++ ys) s := by
  fun_induction path s generalizing name with
  | case1 => cases h
  | case2 s segment hs =>
    obtain ⟨rfl, rfl⟩ := Prod.mk.inj (Except.ok.inj h)
    exact ⟨_, .last (leadingSegment _ hs), fun ys hys => spells_leadingSegment hs hys⟩
  | case3 => cases h
  | case4 => cases h
  | case5 s segment hs =>
    rename_i hcolon _ _ hcolon' _ _ _ hmore ih
    obtain ⟨rfl, rfl⟩ := Prod.mk.inj (Except.ok.inj h)
    obtain ⟨xs, hpath, hspells⟩ := ih hmore
    refine ⟨_, .more (leadingSegment _ hs) hpath, fun ys hys => spells_leadingSegment hs ?_⟩
    exact spells_of_eat? (m := .colon) hcolon (spells_of_eat? (m := .colon) hcolon' (hspells ys hys))

theorem exists_typeOf {s : List Char} {t : TypeExpr} {r : Shorter s} (h : type s = .ok (t, r))
    (harguments : ∀ s' : List Char, s'.length < s.length → ∀ ts r, arguments s' = .ok (ts, r) →
      ∃ xs, ArgumentsOf xs ts ∧
        ∀ ys, Spells ys r.val → Spells (xs ++ .mark .closeAngle :: ys) s') :
    ∃ xs, TypeOf xs t ∧ ∀ ys, Spells ys r.val → Spells (xs ++ ys) s := by
  rw [type.eq_def] at h
  split at h
  · rename_i hopen
    split at h
    · rename_i hclose
      obtain ⟨rfl, rfl⟩ := Prod.mk.inj (Except.ok.inj h)
      exact ⟨_, .unit, fun ys hys =>
        spells_of_eat? (m := .openParen) hopen (spells_of_eat? (m := .closeParen) hclose hys)⟩
    · cases h
  · split at h
    · cases h
    · rename_i name r hr hpath
      obtain ⟨xs, hxs, hspells⟩ := exists_pathOf hpath
      split at h
      · obtain ⟨rfl, rfl⟩ := Prod.mk.inj (Except.ok.inj h)
        exact ⟨xs, .plain hxs, hspells⟩
      · rename_i r' hr' hopen
        split at h
        · cases h
        · rename_i as r'' hr'' hargs
          obtain ⟨rfl, rfl⟩ := Prod.mk.inj (Except.ok.inj h)
          obtain ⟨zs, hzs, hspells'⟩ := harguments r' (by omega) _ _ hargs
          refine ⟨_, .applied hxs hzs, fun ys hys => ?_⟩
          simp only [List.append_assoc, List.cons_append, List.nil_append]
          exact hspells _ (spells_of_eat? (m := .openAngle) hopen (hspells' ys hys))

theorem exists_argumentsOf {s : List Char} {ts : List TypeExpr} {r : Shorter s}
    (h : arguments s = .ok (ts, r)) :
    ∃ xs, ArgumentsOf xs ts ∧ ∀ ys, Spells ys r.val → Spells (xs ++ .mark .closeAngle :: ys) s := by
  have harguments : ∀ s' : List Char, s'.length < s.length → ∀ ts r, arguments s' = .ok (ts, r) →
      ∃ xs, ArgumentsOf xs ts ∧
        ∀ ys, Spells ys r.val → Spells (xs ++ .mark .closeAngle :: ys) s' :=
    fun _ _ _ _ hs' => exists_argumentsOf hs'
  rw [arguments.eq_def] at h
  split at h
  · cases h
  · rename_i t r hr ht
    obtain ⟨xs, hxs, hspells⟩ := exists_typeOf ht harguments
    split at h
    · rename_i r' hr' hcomma
      split at h
      · cases h
      · rename_i more r'' hr'' hmore
        obtain ⟨rfl, rfl⟩ := Prod.mk.inj (Except.ok.inj h)
        obtain ⟨zs, hzs, hspells'⟩ := harguments r' (by omega) _ _ hmore
        refine ⟨_, .more hxs hzs, fun ys hys => ?_⟩
        rw [List.append_assoc, List.cons_append]
        exact hspells _ (spells_of_eat? (m := .comma) hcomma (hspells' ys hys))
    · split at h
      · rename_i hclose
        obtain ⟨rfl, rfl⟩ := Prod.mk.inj (Except.ok.inj h)
        exact ⟨xs, .last hxs, fun ys hys =>
          hspells _ (spells_of_eat? (m := .closeAngle) hclose hys)⟩
      · cases h
termination_by s.length

/-! Every text that spells the symbols of a type is read as that type. -/

/-- What stands behind a path: nothing, or a mark that does not go on with it. -/
def EndsPath (ys : List Symbol) : Prop := ∀ y ∈ ys.head?, ∃ m, y = .mark m ∧ m ≠ .colon

/-- What stands behind a type: nothing, a comma or a closing bracket. -/
def EndsType (ys : List Symbol) : Prop := ∀ y ∈ ys.head?, y = .mark .comma ∨ y = .mark .closeAngle

theorem endsPath_cons {m : Mark} (ys : List Symbol) (h : m ≠ .colon) : EndsPath (.mark m :: ys) :=
  fun _ hy => ⟨m, (Option.some.inj hy).symm, h⟩

theorem endsType_comma (ys : List Symbol) : EndsType (.mark .comma :: ys) :=
  fun _ hy => .inl (Option.some.inj hy).symm

theorem endsType_closeAngle (ys : List Symbol) : EndsType (.mark .closeAngle :: ys) :=
  fun _ hy => .inr (Option.some.inj hy).symm

theorem endsType_nil : EndsType [] := fun _ hy => absurd hy (Option.not_mem_none _)

theorem EndsType.endsPath {ys : List Symbol} (h : EndsType ys) : EndsPath ys := by
  intro y hy
  obtain rfl | rfl := h y hy
  · exact ⟨.comma, rfl, nofun⟩
  · exact ⟨.closeAngle, rfl, nofun⟩

theorem EndsType.ne_openAngle {ys : List Symbol} (h : EndsType ys) :
    ys.head? ≠ some (.mark .openAngle) := by
  intro hhead
  obtain heq | heq := h _ hhead
  · cases heq
  · cases heq

theorem EndsPath.ne_colon {ys : List Symbol} (h : EndsPath ys) :
    ys.head? ≠ some (.mark .colon) := by
  intro hhead
  obtain ⟨m, heq, hm⟩ := h _ hhead
  cases heq
  exact hm rfl

theorem PathOf.head?_append_ne {xs : List Symbol} {name : List Char} (h : PathOf xs name) (m : Mark)
    (ys : List Symbol) : (xs ++ ys).head? ≠ some (.mark m) := by
  cases h <;> exact nofun

theorem PathOf.reads {xs ys : List Symbol} {name s : List Char} (h : PathOf xs name)
    (hs : Spells (xs ++ ys) s) (hys : EndsPath ys) :
    ∃ r, path s = .ok (name, r) ∧ Spells ys r.val := by
  induction h generalizing s with
  | last g =>
    obtain ⟨htake, hdrop⟩ := Spells.segment hs fun y hy => (hys y hy).imp fun _ hm => hm.1
    have hne : (skipBlanks s).takeWhile isSegmentChar ≠ [] := htake ▸ g.ne_nil
    have hcolon : eat? ':' ((skipBlanks s).dropWhile isSegmentChar) = none :=
      hdrop.eat?_eq_none (m := .colon) hys.ne_colon
    rw [path, dif_neg hne]
    simp only [hcolon, htake]
    exact ⟨_, rfl, hdrop⟩
  | @more g xs name rest ih =>
    obtain ⟨htake, hdrop⟩ := Spells.segment hs fun y hy => ⟨_, (Option.some.inj hy).symm⟩
    have hne : (skipBlanks s).takeWhile isSegmentChar ≠ [] := htake ▸ g.ne_nil
    obtain ⟨r₁, hr₁, hspells₁⟩ := hdrop.eat?
    obtain ⟨r₂, hr₂, hspells₂⟩ := hspells₁.eat?
    obtain ⟨r₃, hr₃, hspells₃⟩ := ih hspells₂
    rw [path, dif_neg hne]
    simp only [Mark.char] at hr₁ hr₂
    simp only [hr₁, hr₂, hr₃, htake]
    exact ⟨_, rfl, hspells₃⟩

mutual

theorem TypeOf.reads {xs ys : List Symbol} {t : TypeExpr} {s : List Char} (h : TypeOf xs t)
    (hs : Spells (xs ++ ys) s) (hys : EndsType ys) :
    ∃ r, type s = .ok (t, r) ∧ Spells ys r.val :=
  match h with
  | .unit => by
    obtain ⟨r, hr, hspells⟩ := hs.eat?
    obtain ⟨r', hr', hspells'⟩ := hspells.eat?
    simp only [Mark.char] at hr hr'
    rw [type.eq_def]
    simp only [hr, hr']
    exact ⟨_, rfl, hspells'⟩
  | .plain path => by
    have hopen : eat? '(' s = none := hs.eat?_eq_none (m := .openParen) (path.head?_append_ne _ ys)
    obtain ⟨r, hr, hspells⟩ := path.reads hs hys.endsPath
    have hnone : eat? '<' r.val = none := hspells.eat?_eq_none (m := .openAngle) hys.ne_openAngle
    rw [type.eq_def]
    simp only [hopen, hr, hnone]
    exact ⟨_, rfl, hspells⟩
  | .applied path arguments => by
    rw [List.append_assoc, List.cons_append, List.append_assoc, List.singleton_append] at hs
    have hopen : eat? '(' s = none := hs.eat?_eq_none (m := .openParen) (path.head?_append_ne _ _)
    obtain ⟨r, hr, hspells⟩ := path.reads hs (endsPath_cons _ nofun)
    obtain ⟨r', hr', hspells'⟩ := hspells.eat?
    obtain ⟨r'', hr'', hspells''⟩ := arguments.reads hspells'
    simp only [Mark.char] at hr'
    rw [type.eq_def]
    simp only [hopen, hr, hr', hr'']
    exact ⟨_, rfl, hspells''⟩

theorem ArgumentsOf.reads {xs ys : List Symbol} {ts : List TypeExpr} {s : List Char}
    (h : ArgumentsOf xs ts) (hs : Spells (xs ++ .mark .closeAngle :: ys) s) :
    ∃ r, arguments s = .ok (ts, r) ∧ Spells ys r.val :=
  match h with
  | .last type => by
    obtain ⟨r, hr, hspells⟩ := type.reads hs (endsType_closeAngle ys)
    have hcomma : eat? ',' r.val = none := hspells.eat?_eq_none (m := .comma) nofun
    obtain ⟨r', hr', hspells'⟩ := hspells.eat?
    simp only [Mark.char] at hr'
    rw [arguments.eq_def]
    simp only [hr, hcomma, hr']
    exact ⟨_, rfl, hspells'⟩
  | .more type rest => by
    rw [List.append_assoc, List.cons_append] at hs
    obtain ⟨r, hr, hspells⟩ := type.reads hs (endsType_comma _)
    obtain ⟨r', hr', hspells'⟩ := hspells.eat?
    obtain ⟨r'', hr'', hspells''⟩ := rest.reads hspells'
    simp only [Mark.char] at hr'
    rw [arguments.eq_def]
    simp only [hr, hr', hr'']
    exact ⟨_, rfl, hspells''⟩

end

/-- Reading accepts exactly the texts that spell the symbols of a type. -/
theorem parseChars_eq_ok_iff {s : List Char} {t : TypeExpr} :
    parseChars s = .ok t ↔ ∃ xs, TypeOf xs t ∧ Spells xs s := by
  constructor
  · intro h
    unfold parseChars at h
    split at h
    · cases h
    · rename_i found rest _ htype
      split at h
      · rename_i hrest
        obtain rfl := Except.ok.inj h
        obtain ⟨xs, hxs, hspells⟩ := exists_typeOf htype fun _ _ _ _ hs' => exists_argumentsOf hs'
        refine ⟨xs, hxs, ?_⟩
        have hend : Spells [] rest := .of_skipBlanks (hrest ▸ .nil)
        simpa using hspells [] hend
      · cases h
  · rintro ⟨xs, hxs, hspells⟩
    rw [← List.append_nil xs] at hspells
    obtain ⟨r, hr, hend⟩ := hxs.reads hspells endsType_nil
    unfold parseChars
    simp only [hr, hend.skipBlanks_of_nil]

/-! Blanks between symbols. -/

section Blanks

variable {xs : List Symbol} {a b blanks s : List Char} {c : Char}

/-- No letter, digit or underscore stands on both sides of the place between the texts. -/
def Splits (a b : List Char) : Prop :=
  ∀ c ∈ a.getLast?, ∀ d ∈ b.head?, isSegmentChar c = false ∨ isSegmentChar d = false

theorem Splits.of_append {p : List Char} (h : Splits (p ++ a) b) : Splits a b :=
  fun c hc => h c (List.mem_getLast?_append_of_mem_getLast? hc)

theorem Symbol.not_splits {x : Symbol} (hx : x.chars = a ++ b) (ha : a ≠ []) (hb : b ≠ [])
    (s : List Char) : ¬Splits a (b ++ s) := by
  intro hsplits
  obtain ⟨d, b, rfl⟩ := List.exists_cons_of_ne_nil hb
  have hends := hsplits (a.getLast ha) (List.getLast_mem_getLast? ha) d rfl
  cases x with
  | mark m =>
    have hlength : 1 = a.length + (b.length + 1) := by simpa [chars] using congrArg List.length hx
    have hpos := List.length_pos_iff.2 ha
    omega
  | segment g =>
    have hmem : ∀ c ∈ a ++ d :: b, isSegmentChar c = true := hx ▸ g.isSegmentChar
    obtain hend | hend := hends
    · rw [hmem _ (List.mem_append_left _ (List.getLast_mem ha))] at hend
      cases hend
    · rw [hmem _ (List.mem_append_right _ List.mem_cons_self)] at hend
      cases hend

namespace Spells

theorem prepend (h : Spells xs s) (hblanks : ∀ c ∈ blanks, Text.isBlank c = true) :
    Spells xs (blanks ++ s) := by
  induction blanks with
  | nil => exact h
  | cons c blanks ih =>
    rw [List.forall_mem_cons] at hblanks
    exact .blank hblanks.1 (ih hblanks.2)

/-- Blanks may be inserted wherever they do not split a segment. -/
theorem insert (h : Spells xs (a ++ b)) (hsplits : Splits a b)
    (hblanks : ∀ c ∈ blanks, Text.isBlank c = true) : Spells xs (a ++ (blanks ++ b)) := by
  generalize hs : a ++ b = s at h
  induction h generalizing a with
  | nil =>
    obtain ⟨rfl, rfl⟩ := List.append_eq_nil_iff.1 hs
    exact Spells.nil.prepend hblanks
  | blank hc h ih =>
    cases a with
    | nil =>
      obtain rfl := hs
      exact (Spells.blank hc h).prepend hblanks
    | cons d a =>
      obtain ⟨rfl, rfl⟩ := List.cons.inj hs
      exact .blank hc (ih (hsplits.of_append (p := [d])) rfl)
  | cons x h ih =>
    -- The place is in front of the first symbol, behind it, or inside it and then in a segment.
    obtain ⟨m, hx, rfl⟩ | ⟨a', rfl, rfl⟩ := List.append_eq_append_iff.1 hs
    · by_cases ha : a = []
      · subst ha
        rw [List.nil_append, ← List.nil_append m, ← hx]
        exact (Spells.cons x h).prepend hblanks
      · by_cases hm : m = []
        · subst hm
          rw [List.append_nil] at hx
          rw [← hx]
          exact .cons x (h.prepend hblanks)
        · exact absurd hsplits (Symbol.not_splits hx ha hm _)
    · rw [List.append_assoc]
      exact .cons x (ih hsplits.of_append rfl)

theorem remove_one (h : Spells xs (a ++ c :: b)) (hc : Text.isBlank c = true) :
    Spells xs (a ++ b) := by
  generalize hs : a ++ c :: b = s at h
  induction h generalizing a with
  | nil => cases (List.append_eq_nil_iff.1 hs).2
  | blank hd h ih =>
    cases a with
    | nil =>
      obtain ⟨rfl, rfl⟩ := List.cons.inj hs
      exact h
    | cons d a =>
      obtain ⟨rfl, rfl⟩ := List.cons.inj hs
      exact .blank hd (ih rfl)
  | cons x h ih =>
    -- No symbol has a blank in it.
    obtain ⟨m, hx, hm⟩ | ⟨a', rfl, rfl⟩ := List.append_eq_append_iff.1 hs
    · cases m with
      | nil =>
        rw [List.append_nil] at hx
        rw [← hx]
        exact .cons x (ih (a := []) hm)
      | cons d m =>
        obtain ⟨rfl, rfl⟩ := List.cons.inj hm
        have hmem : c ∈ x.chars := hx ▸ List.mem_append_right _ List.mem_cons_self
        rw [x.isBlank_of_mem hmem] at hc
        cases hc
    · rw [List.append_assoc]
      exact .cons x (ih rfl)

/-- Blanks may be removed everywhere. -/
theorem remove (h : Spells xs (a ++ (blanks ++ b)))
    (hblanks : ∀ c ∈ blanks, Text.isBlank c = true) : Spells xs (a ++ b) := by
  induction blanks with
  | nil => exact h
  | cons c blanks ih =>
    rw [List.forall_mem_cons] at hblanks
    exact ih (h.remove_one hblanks.1) hblanks.2

end Spells

end Blanks

/-! The canonical text of a type spells the symbols it was read from. -/

/-- The texts of types with their separators. -/
def joinedChars : List TypeExpr → List Char
  | [] => []
  | t :: ts => t.chars ++ moreChars ts

theorem argumentChars_of_ne_nil {ts : List TypeExpr} (h : ts ≠ []) :
    argumentChars ts = '<' :: (joinedChars ts ++ ['>']) := by
  cases ts with
  | nil => exact absurd rfl h
  | cons t ts => rfl

theorem moreChars_of_ne_nil {ts : List TypeExpr} (h : ts ≠ []) :
    moreChars ts = ',' :: ' ' :: joinedChars ts := by
  cases ts with
  | nil => exact absurd rfl h
  | cons t ts => rw [moreChars, joinedChars]

theorem ArgumentsOf.ne_nil {xs : List Symbol} {ts : List TypeExpr} (h : ArgumentsOf xs ts) :
    ts ≠ [] := by
  cases h <;> exact List.cons_ne_nil _ _

theorem PathOf.spells {xs ys : List Symbol} {name s : List Char} (h : PathOf xs name)
    (hs : Spells ys s) : Spells (xs ++ ys) (name ++ s) := by
  induction h with
  | last g => exact .cons (.segment g) hs
  | more g rest ih =>
    rw [List.append_assoc]
    exact .cons (.segment g) (.cons (.mark .colon) (.cons (.mark .colon) ih))

mutual

theorem TypeOf.spells {xs ys : List Symbol} {t : TypeExpr} {s : List Char} (h : TypeOf xs t)
    (hs : Spells ys s) : Spells (xs ++ ys) (t.chars ++ s) :=
  match h with
  | .unit => .cons (.mark .openParen) (.cons (.mark .closeParen) hs)
  | .plain path => by
    rw [simple, chars, String.toList_ofList]
    exact path.spells hs
  | .applied path arguments => by
    rw [chars_mk, String.toList_ofList, argumentChars_of_ne_nil arguments.ne_nil]
    simp only [List.append_assoc, List.cons_append, List.nil_append]
    exact path.spells (.cons (.mark .openAngle) (arguments.spells (.cons (.mark .closeAngle) hs)))

theorem ArgumentsOf.spells {xs ys : List Symbol} {ts : List TypeExpr} {s : List Char}
    (h : ArgumentsOf xs ts) (hs : Spells ys s) : Spells (xs ++ ys) (joinedChars ts ++ s) :=
  match h with
  | .last type => by
    rw [joinedChars, moreChars, List.append_nil]
    exact type.spells hs
  | .more type rest => by
    rw [joinedChars, moreChars_of_ne_nil rest.ne_nil]
    simp only [List.append_assoc, List.cons_append]
    exact type.spells (.cons (.mark .comma) (.blank (by decide) (rest.spells hs)))

end

theorem TypeOf.spells_chars {xs : List Symbol} {t : TypeExpr} (h : TypeOf xs t) :
    Spells xs t.chars := by
  have hspells := h.spells .nil
  rwa [List.append_nil, List.append_nil] at hspells

theorem parse_eq_ok_iff {input : String} {t : TypeExpr} :
    TypeExpr.parse input = .ok t ↔ ∃ xs, TypeOf xs t ∧ Spells xs input.toList := by
  rw [← parseChars_eq_ok_iff, TypeExpr.parse]
  cases parseChars input.toList with
  | error fault => exact ⟨nofun, nofun⟩
  | ok found => exact ⟨fun h => congrArg Except.ok (Except.ok.inj h),
      fun h => congrArg Except.ok (Except.ok.inj h)⟩

/-! A type of the grammar is written with paths. -/

theorem Segment.isPath (g : Segment) : IsPath g.text := by
  refine .of_plain g.ne_nil fun c hc => ?_
  have hother : ∀ m : Mark, c ≠ m.char := by
    rintro m rfl
    exact absurd (g.isSegmentChar _ hc) (ne_true_of_eq_false m.isSegmentChar_char)
  refine ⟨hother .colon, ?_⟩
  rintro (hopen | hcomma | hclose)
  · exact hother .openAngle hopen
  · exact hother .comma hcomma
  · exact hother .closeAngle hclose

theorem PathOf.isPath {xs : List Symbol} {name : List Char} (h : PathOf xs name) : IsPath name := by
  induction h with
  | last g => exact g.isPath
  | more g rest ih =>
    refine ⟨g.isPath.keyName.append (.pair ih.keyName.colons), ?_⟩
    simp only [List.mem_append, List.mem_cons]
    rintro c (hc | rfl | rfl | hc)
    · exact g.isPath.plain c hc
    · decide
    · decide
    · exact ih.plain c hc

mutual

theorem TypeOf.written {xs : List Symbol} {t : TypeExpr} (h : TypeOf xs t) : t.Written :=
  match h with
  | .unit => .mk (.of_all (by decide) (by decide)) (List.forall_mem_nil _)
  | .plain path => .mk (by rw [String.toList_ofList]; exact path.isPath) (List.forall_mem_nil _)
  | .applied path arguments =>
    .mk (by rw [String.toList_ofList]; exact path.isPath) arguments.written

theorem ArgumentsOf.written {xs : List Symbol} {ts : List TypeExpr} (h : ArgumentsOf xs ts) :
    ∀ t ∈ ts, t.Written :=
  match h with
  | .last type => List.forall_mem_singleton.2 type.written
  | .more type rest => List.forall_mem_cons.2 ⟨type.written, rest.written⟩

end

/-- A type that was read from its syntax is written with paths. -/
theorem written_of_parse {input : String} {t : TypeExpr} (h : TypeExpr.parse input = .ok t) :
    t.Written := by
  obtain ⟨xs, hxs, -⟩ := parse_eq_ok_iff.1 h
  exact hxs.written

/-- A text is read as a type exactly when it spells the symbols of that type, and is refused with a
fault otherwise. Blanks between two symbols do not matter, and a type that was read is read again from
its canonical text. -/
theorem parse_grammar (input : String) :
    (∀ t, TypeExpr.parse input = .ok t ↔ ∃ xs, TypeOf xs t ∧ Spells xs input.toList) ∧
      ((¬∃ xs t, TypeOf xs t ∧ Spells xs input.toList) →
        ∃ fault, TypeExpr.parse input = .error ⟨input, fault⟩) ∧
      (∀ a blanks b t, input.toList = a ++ b → Splits a b →
        (∀ c ∈ blanks, Text.isBlank c = true) →
        (TypeExpr.parse (String.ofList (a ++ (blanks ++ b))) = .ok t ↔
          TypeExpr.parse input = .ok t)) ∧
      ∀ t, TypeExpr.parse input = .ok t → TypeExpr.parse t.display = .ok t := by
  refine ⟨fun t => parse_eq_ok_iff, fun hnone => ?_, fun a blanks b t hinput hsplits hblanks => ?_,
    fun t ht => ?_⟩
  · cases hparse : parseChars input.toList with
    | error fault => exact ⟨fault, by rw [TypeExpr.parse, hparse]; rfl⟩
    | ok t =>
      obtain ⟨xs, hxs, hspells⟩ := parseChars_eq_ok_iff.1 hparse
      exact absurd ⟨xs, t, hxs, hspells⟩ hnone
  · rw [parse_eq_ok_iff, parse_eq_ok_iff, String.toList_ofList, hinput]
    constructor
    · rintro ⟨xs, hxs, hspells⟩
      exact ⟨xs, hxs, hspells.remove hblanks⟩
    · rintro ⟨xs, hxs, hspells⟩
      exact ⟨xs, hxs, hspells.insert hsplits hblanks⟩
  · obtain ⟨xs, hxs, -⟩ := parse_eq_ok_iff.1 ht
    refine parse_eq_ok_iff.2 ⟨xs, hxs, ?_⟩
    rw [display, String.toList_ofList]
    exact hxs.spells_chars

theorem parse_grammar_bytes :
    TypeExpr.parse "Vec<u8>" = .ok (vecOf (simple "u8")) ∧
      TypeExpr.parse "Vec <u8>" = .ok (vecOf (simple "u8")) ∧
      TypeExpr.parse (vecOf (simple "u8")).display = .ok (vecOf (simple "u8")) := by
  let vec : Segment := ⟨"Vec".toList, by decide, List.all_eq_true.1 (by decide)⟩
  let byte : Segment := ⟨"u8".toList, by decide, List.all_eq_true.1 (by decide)⟩
  have htype := TypeOf.applied (.last vec) (.last (.plain (.last byte)))
  have hspells := Spells.cons (.segment vec) (.cons (.mark .openAngle)
    (.cons (.segment byte) (.cons (.mark .closeAngle) .nil)))
  obtain ⟨hparse, -, hblank, hdisplay⟩ := parse_grammar "Vec<u8>"
  have hread : TypeExpr.parse "Vec<u8>" = .ok (vecOf (simple "u8")) :=
    (hparse _).2 ⟨_, htype, hspells⟩
  refine ⟨hread, ?_, hdisplay _ hread⟩
  exact (hblank "Vec".toList [' '] "<u8>".toList _ (by decide)
    (fun _ _ _ hd => .inr (by cases hd; decide)) (List.all_eq_true.1 (by decide))).2 hread

end DataAccess.TypeExpr
