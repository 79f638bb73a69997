import DataAccess.Sql.Lexeme
import Mathlib.Data.List.TakeWhile
import Mathlib.Tactic.ByContra

/-!
Lexing a text piece by piece. A lexeme that is complete stays the same when the text goes on with a
character that can continue no lexeme, so the lexemes of the whole are those of the pieces. Only a
line comment swallows what follows it.
-/

set_option autoImplicit false

namespace DataAccess.Sql

/-- A character that continues no lexeme but a line comment. -/
structure IsBreak (d : Char) : Prop where
  notSpace : isSpace d = false
  notIdent : isIdentPart d = false
  notNumber : isNumberPart d = false
  notQuote : d ≠ '\'' ∧ d ≠ '"' ∧ d ≠ '`'
  notDash : d ≠ '-'
  notStar : d ≠ '*'

theorem isBreak_close : IsBreak ')' := by
  refine ⟨?_, ?_, ?_, ?_, ?_, ?_⟩ <;> decide

theorem isIdentPart_of_isIdentStart {c : Char} (h : isIdentStart c = true) : isIdentPart c = true := by
  simp only [isIdentStart, Bool.or_eq_true, decide_eq_true_eq] at h
  rcases h with h | rfl
  · simp [isIdentPart, Text.isAlphanumeric, h]
  · decide

namespace IsBreak

variable {d : Char} (hd : IsBreak d)
include hd

theorem notStart : isIdentStart d = false := by
  have := hd.notIdent
  cases h : isIdentStart d with
  | false => rfl
  | true => simp [isIdentPart_of_isIdentStart h] at this

theorem notDigit : d.isDigit = false := by
  have := hd.notNumber
  cases h : d.isDigit with
  | false => rfl
  | true => simp [isNumberPart, Char.isAlphanum, h] at this

end IsBreak

theorem takeWhile_append_stop {p : Char → Bool} {d : Char} (hd : p d = false) (cs t : List Char) :
    (cs ++ d :: t).takeWhile p = cs.takeWhile p := by
  induction cs with
  | nil => simp [hd]
  | cons c cs ih => simp [List.takeWhile_cons, ih]

theorem dropWhile_append_stop {p : Char → Bool} {d : Char} (hd : p d = false) (cs t : List Char) :
    (cs ++ d :: t).dropWhile p = cs.dropWhile p ++ d :: t := by
  induction cs with
  | nil => simp [hd]
  | cons c cs ih =>
    by_cases hc : p c = true
    · simp [hc, ih]
    · simp [hc]

/-- The same run with more text behind it. -/
def Run.followedBy (run : Run) (t : List Char) : Run := { run with rest := run.rest ++ t }

theorem quotedRun_followedBy {quote d : Char} (hd : d ≠ quote) (t cs : List Char)
    (h : (quotedRun quote cs).closed = true) :
    quotedRun quote (cs ++ d :: t) = (quotedRun quote cs).followedBy (d :: t) := by
  fun_induction quotedRun quote cs with
  | case1 => simp at h
  | case2 => simp [quotedRun, Run.followedBy, hd]
  | case3 c hc => simp at h
  | case4 rest ih =>
    simp only [Run.before] at h
    simp [quotedRun, ih h, Run.before, Run.followedBy]
  | case5 e rest he => simp [quotedRun, Run.followedBy, he]
  | case6 c e rest hc ih =>
    simp only [Run.before] at h
    rw [List.cons_append, List.cons_append, quotedRun, if_neg hc, ← List.cons_append, ih h]
    rfl

theorem bracketRun_followedBy (t cs : List Char) (h : (bracketRun cs).closed = true) :
    bracketRun (cs ++ t) = (bracketRun cs).followedBy t := by
  fun_induction bracketRun cs with
  | case1 => simp at h
  | case2 => simp [bracketRun, Run.followedBy]
  | case3 c rest hc ih =>
    simp only [Run.before] at h
    simp [bracketRun, hc, ih h, Run.before, Run.followedBy]

theorem commentRun_followedBy (t cs : List Char) (h : (commentRun cs).closed = true) :
    commentRun (cs ++ t) = (commentRun cs).followedBy t := by
  fun_induction commentRun cs with
  | case1 => simp at h
  | case2 => simp at h
  | case3 c d rest hc => simp [commentRun, Run.followedBy, hc]
  | case4 c d rest hc ih =>
    simp only [Run.before] at h
    rw [List.cons_append, List.cons_append, commentRun, if_neg hc, ← List.cons_append, ih h]
    rfl

/-- A comment up to the end of its line. -/
def Lexeme.isLineComment (x : Lexeme) : Bool := x.kind = .comment && x.text.head? = some '-'

/-- A split of a text that goes on with `t` is the split of the text alone, unless its lexeme is
faulty or a line comment that reaches the end. -/
def Continues (t : List Char) (split split' : Lexeme × List Char) : Prop :=
  split.1.fault = none → (split.1.isLineComment = true → split.2 ≠ []) →
    split' = (split.1, split.2 ++ t)

namespace Continues

theorem ite {p q : Prop} [Decidable p] [Decidable q] {t : List Char}
    {a b a' b' : Lexeme × List Char} (hpq : q ↔ p) (ha : p → Continues t a a')
    (hb : ¬p → Continues t b b') : Continues t (if p then a else b) (if q then a' else b') := by
  by_cases h : p
  · rw [if_pos h, if_pos (hpq.2 h)]
    exact ha h
  · rw [if_neg h, if_neg (mt hpq.1 h)]
    exact hb h

theorem of_eq {t rest : List Char} {x : Lexeme} {split' : Lexeme × List Char}
    (h : split' = (x, rest ++ t)) : Continues t (x, rest) split' := fun _ _ => h

/-- A lexeme whose text a run decides is the same when the run is closed. -/
theorem of_run {t : List Char} {run run' : Run} {fault : Fault} (f : Run → TokenKind × List Char)
    (hf : f (run.followedBy t) = f run) (h : run.closed = true → run' = run.followedBy t) :
    Continues t
      (⟨(f run).1, (f run).2, if run.closed then none else some fault⟩, run.rest)
      (⟨(f run').1, (f run').2, if run'.closed then none else some fault⟩, run'.rest) := by
  intro hfault _
  have hclosed : run.closed = true := by
    cases hr : run.closed with
    | true => rfl
    | false => simp [hr] at hfault
  rw [h hclosed, hf]
  rfl

end Continues

theorem head?_append_stop {d x : Char} (hd : d ≠ x) (cs t : List Char) :
    (cs ++ d :: t).head? = some x ↔ cs.head? = some x := by
  cases cs with
  | nil => simpa using hd
  | cons c cs => rfl

theorem positional_continues {d : Char} (hd : IsBreak d) (cs t : List Char) :
    Continues (d :: t) (positional cs) (positional (cs ++ d :: t)) := by
  refine Continues.of_eq ?_
  simp only [positional, takeWhile_append_stop hd.notDigit, dropWhile_append_stop hd.notDigit,
    takeWhile_append_stop hd.notIdent, dropWhile_append_stop hd.notIdent]

theorem named_continues {d : Char} (hd : IsBreak d) (cs t : List Char) :
    Continues (d :: t) (named cs) (named (cs ++ d :: t)) := by
  have hstart : (cs ++ d :: t).head?.any isIdentStart = true ↔
      cs.head?.any isIdentStart = true := by
    cases cs with
    | nil => simp [hd.notStart]
    | cons c cs => rfl
  refine Continues.ite hstart (fun _ => Continues.of_eq ?_) fun _ => Continues.of_eq rfl
  simp only [takeWhile_append_stop hd.notIdent, dropWhile_append_stop hd.notIdent]

/-- A run that stops inside a text stops there whatever follows the text. -/
theorem takeWhile_append_of_dropWhile_ne_nil {p : Char → Bool} {cs : List Char}
    (h : cs.dropWhile p ≠ []) (t : List Char) : (cs ++ t).takeWhile p = cs.takeWhile p := by
  induction cs with
  | nil => simp at h
  | cons c cs ih =>
    cases hc : p c with
    | false => simp [hc]
    | true =>
      rw [List.dropWhile_cons_of_pos hc] at h
      simp [hc, ih h]

theorem dropWhile_append_of_dropWhile_ne_nil {p : Char → Bool} {cs : List Char}
    (h : cs.dropWhile p ≠ []) (t : List Char) : (cs ++ t).dropWhile p = cs.dropWhile p ++ t := by
  induction cs with
  | nil => simp at h
  | cons c cs ih =>
    cases hc : p c with
    | false => simp [hc]
    | true =>
      rw [List.dropWhile_cons_of_pos hc] at h
      simp [hc, ih h]

theorem lexeme_continues {d : Char} (hd : IsBreak d) (c : Char) (cs t : List Char) :
    Continues (d :: t) (lexeme c cs) (lexeme c (cs ++ d :: t)) := by
  refine Continues.ite Iff.rfl (fun _ => Continues.of_eq rfl) fun _ => ?_
  refine Continues.ite Iff.rfl (fun _ => Continues.of_eq ?_) fun _ => ?_
  · rw [takeWhile_append_stop hd.notSpace, dropWhile_append_stop hd.notSpace]
  refine Continues.ite (and_congr_right fun _ => head?_append_stop hd.notDash cs t)
    (fun h _ hrest => ?_) fun _ => ?_
  · -- A line comment that does not reach the end stops at a line break of its own.
    have hstop : cs.dropWhile (· ≠ '\n') ≠ [] := hrest (by simp [Lexeme.isLineComment, h.1])
    rw [takeWhile_append_of_dropWhile_ne_nil hstop, dropWhile_append_of_dropWhile_ne_nil hstop]
  refine Continues.ite (and_congr_right fun _ => head?_append_stop hd.notStar cs t)
    (fun h => ?_) fun _ => ?_
  · obtain ⟨x, cs, rfl⟩ := List.exists_cons_of_ne_nil (l := cs) (by rintro rfl; simp at h)
    exact Continues.of_run (fun run => (.comment, c :: '*' :: run.text)) rfl
      (commentRun_followedBy (d :: t) cs)
  refine Continues.ite Iff.rfl (fun h => ?_) fun _ => ?_
  · exact Continues.of_run (fun run => (.stringLit, c :: run.text)) rfl
      (quotedRun_followedBy (h ▸ hd.notQuote.1) t cs)
  refine Continues.ite Iff.rfl (fun h => ?_) fun _ => ?_
  · have hquote : d ≠ c := by
      rcases h with rfl | rfl
      · exact hd.notQuote.2.1
      · exact hd.notQuote.2.2
    exact Continues.of_run (fun run => (.quotedIdent (String.ofList run.value), c :: run.text)) rfl
      (quotedRun_followedBy hquote t cs)
  refine Continues.ite Iff.rfl (fun _ => ?_) fun _ => ?_
  · exact Continues.of_run (fun run => (.quotedIdent (String.ofList run.value), c :: run.text)) rfl
      (bracketRun_followedBy (d :: t) cs)
  refine Continues.ite Iff.rfl (fun _ => positional_continues hd cs t) fun _ => ?_
  refine Continues.ite Iff.rfl (fun _ => named_continues hd cs t) fun _ => ?_
  refine Continues.ite Iff.rfl (fun _ => Continues.of_eq rfl) fun _ => ?_
  refine Continues.ite Iff.rfl (fun _ => Continues.of_eq rfl) fun _ => ?_
  refine Continues.ite Iff.rfl (fun _ => Continues.of_eq ?_) fun _ => ?_
  · rw [takeWhile_append_stop hd.notNumber, dropWhile_append_stop hd.notNumber]
  refine Continues.ite Iff.rfl (fun _ => Continues.of_eq ?_) fun _ => Continues.of_eq rfl
  rw [takeWhile_append_stop hd.notIdent, dropWhile_append_stop hd.notIdent]

theorem lexemes_cons (c : Char) (cs : List Char) :
    lexemes (c :: cs) = (lexeme c cs).1 :: lexemes (lexeme c cs).2 := by
  rw [lexemes]

/-- The lexemes of a text without faults that does not end inside a line comment stay the same when
the text goes on. -/
theorem lexemes_append {d : Char} (hd : IsBreak d) (s t : List Char)
    (hfault : ∀ x ∈ lexemes s, x.fault = none)
    (hlast : ∀ x, (lexemes s).getLast? = some x → x.isLineComment = false) :
    lexemes (s ++ d :: t) = lexemes s ++ lexemes (d :: t) := by
  fun_induction lexemes s with
  | case1 => simp
  | case2 c cs ih =>
    have hrest : (lexeme c cs).1.isLineComment = true → (lexeme c cs).2 ≠ [] := by
      intro hcomment hnil
      have := hlast (lexeme c cs).1 (by simp [hnil, lexemes])
      simp [hcomment] at this
    have hsplit := lexeme_continues hd c cs t (hfault _ (by simp)) hrest
    rw [List.cons_append, lexemes_cons, hsplit, List.cons_append]
    rw [ih (fun x hx => hfault x (by simp [hx])) fun x hx => hlast x (by
      rw [List.getLast?_cons, hx]; rfl)]

/-- What the rest of the front end reads of a lexeme, besides its text. -/
def Lexeme.shape (x : Lexeme) : TokenKind × Option Fault := (x.kind, x.fault)

theorem lexeme_of_isLineComment {c : Char} {cs : List Char}
    (h : (lexeme c cs).1.isLineComment = true) : c = '-' ∧ cs.head? = some '-' := by
  simp only [Lexeme.isLineComment, Bool.and_eq_true, decide_eq_true_eq] at h
  have hc : c = '-' := by
    have happ := congrArg List.head? (lexeme_append c cs)
    rw [List.head?_append, h.2] at happ
    simpa using happ.symm
  subst hc
  refine ⟨rfl, ?_⟩
  by_contra hne
  have hpunct : lexeme '-' cs = (⟨.punct, ['-'], none⟩, cs) := by
    unfold lexeme
    rw [if_neg (by decide), if_neg (by decide), if_neg (by simp [hne])]
    rw [if_neg (by simp)]
    repeat rw [if_neg (by decide)]
  simp [hpunct] at h

theorem lexeme_lineComment {cs : List Char} (h : cs.head? = some '-') :
    lexeme '-' cs =
      (⟨.comment, '-' :: cs.takeWhile (· ≠ '\n'), none⟩, cs.dropWhile (· ≠ '\n')) := by
  unfold lexeme
  rw [if_neg (by decide), if_neg (by decide), if_pos ⟨rfl, h⟩]

/-- A line comment at the end of a text takes in a character that is put behind it. -/
theorem shapes_of_lexemes_append {d : Char} (hd : IsBreak d) (hline : d ≠ '\n') (s : List Char)
    (hfault : ∀ x ∈ lexemes s, x.fault = none)
    (hlast : ∃ x, (lexemes s).getLast? = some x ∧ x.isLineComment = true) :
    (lexemes (s ++ [d])).map Lexeme.shape = (lexemes s).map Lexeme.shape := by
  fun_induction lexemes s with
  | case1 => simp at hlast
  | case2 c cs ih =>
    obtain ⟨y, hy, hcomment⟩ := hlast
    by_cases hnil : (lexeme c cs).2 = []
    · have hx : (lexeme c cs).1.isLineComment = true := by
        rw [hnil, lexemes] at hy
        simpa [← Option.some.inj hy] using hcomment
      obtain ⟨rfl, hhead⟩ := lexeme_of_isLineComment hx
      obtain ⟨e, es, rfl⟩ := List.exists_cons_of_ne_nil (l := cs) (by rintro rfl; simp at hhead)
      rw [lexeme_lineComment hhead] at hnil ⊢
      have hall : ∀ x ∈ e :: es, x ≠ '\n' := by
        simpa using List.dropWhile_eq_nil_iff.1 hnil
      have hdrop : ((e :: es) ++ [d]).dropWhile (· ≠ '\n') = [] := by
        rw [List.dropWhile_eq_nil_iff]
        intro x hx
        rcases List.mem_append.1 hx with hx | hx
        · simpa using hall x hx
        · simpa [List.mem_singleton.1 hx] using hline
      rw [List.cons_append, lexemes_cons, lexeme_lineComment (by simpa using hhead), hdrop, hnil]
      simp [lexemes, Lexeme.shape]
    · have hsplit := lexeme_continues hd c cs [] (hfault _ (by simp)) fun _ => hnil
      rw [List.cons_append, lexemes_cons, hsplit, List.map_cons, List.map_cons]
      rw [ih (fun x hx => hfault x (by simp [hx])) ⟨y, ?_, hcomment⟩]
      obtain ⟨e, es, hcons⟩ := List.exists_cons_of_ne_nil hnil
      rw [hcons, lexemes_cons] at hy ⊢
      simpa using hy

end DataAccess.Sql
