import DataAccess.Proofs.Rows.Selection
import DataAccess.Proofs.Sql.Normalization
import DataAccess.Proofs.Sql.TokenPositions

/-!
Where a text may be put in front of another one. Only the last lexeme of a text can change when the
text goes on, so it depends on that lexeme and on the next character alone whether the lexemes of the
two texts are those of the whole.
-/

set_option autoImplicit false

namespace DataAccess.Sql

/-- A split that leaves something of a text stays the same when the text goes on. -/
def Stays (t : List Char) (split split' : Lexeme × List Char) : Prop :=
  split.2 ≠ [] → split' = (split.1, split.2 ++ t)

namespace Stays

variable {t : List Char}

theorem ite {p : Prop} [Decidable p] {a b a' b' : Lexeme × List Char} (ha : p → Stays t a a')
    (hb : ¬p → Stays t b b') : Stays t (if p then a else b) (if p then a' else b') := by
  split
  · exact ha ‹_›
  · exact hb ‹_›

theorem of_eq {x : Lexeme} {rest : List Char} {split' : Lexeme × List Char}
    (h : split' = (x, rest ++ t)) : Stays t (x, rest) split' := fun _ => h

theorem of_takeWhile {p : Char → Bool} {cs : List Char} (f : List Char → Lexeme) :
    Stays t (f (cs.takeWhile p), cs.dropWhile p)
      (f ((cs ++ t).takeWhile p), (cs ++ t).dropWhile p) := by
  intro hrest
  rw [takeWhile_append_of_dropWhile_ne_nil hrest, dropWhile_append_of_dropWhile_ne_nil hrest]

theorem of_run {run run' : Run} (f : Run → Lexeme) (hf : f (run.followedBy t) = f run)
    (h : run.rest ≠ [] → run' = run.followedBy t) : Stays t (f run, run.rest) (f run', run'.rest) := by
  intro hrest
  rw [h hrest, hf]
  rfl

end Stays

theorem quotedRun_append_of_rest {quote : Char} (t : List Char) {cs : List Char}
    (h : (quotedRun quote cs).rest ≠ []) :
    quotedRun quote (cs ++ t) = (quotedRun quote cs).followedBy t := by
  fun_induction quotedRun quote cs with
  | case1 => simp at h
  | case2 => simp at h
  | case3 c hc => simp at h
  | case4 rest ih =>
    rw [List.cons_append, List.cons_append, quotedRun, if_pos rfl, if_pos rfl, ih h]
    rfl
  | case5 d rest hd => simp [quotedRun, Run.followedBy, hd]
  | case6 c d rest hc ih =>
    rw [List.cons_append, List.cons_append, quotedRun, if_neg hc, ← List.cons_append, ih h]
    rfl

theorem positional_stays (cs t : List Char) : Stays t (positional cs) (positional (cs ++ t)) := by
  intro hrest
  have hdigits : cs.dropWhile Char.isDigit ≠ [] := by
    intro hnil
    simp [positional, hnil] at hrest
  have hjunk : (cs.dropWhile Char.isDigit).dropWhile isIdentPart ≠ [] := hrest
  simp only [positional, takeWhile_append_of_dropWhile_ne_nil hdigits,
    dropWhile_append_of_dropWhile_ne_nil hdigits, takeWhile_append_of_dropWhile_ne_nil hjunk,
    dropWhile_append_of_dropWhile_ne_nil hjunk]

theorem lexeme_stays (c : Char) (cs t : List Char) :
    Stays t (lexeme c cs) (lexeme c (cs ++ t)) := by
  cases cs with
  | nil =>
    intro hrest
    have happ := congrArg List.length (lexeme_append c [])
    have htext := List.length_pos_iff.2 (lexeme_text_ne_nil c [])
    have hleft := List.length_pos_iff.2 hrest
    simp only [List.length_append, List.length_singleton] at happ
    omega
  | cons d cs =>
    have hhead : (d :: cs ++ t).head? = (d :: cs).head? := rfl
    unfold lexeme
    rw [hhead]
    refine Stays.ite (fun _ => .of_eq rfl) fun _ => ?_
    refine Stays.ite (fun _ => .of_takeWhile (⟨.whitespace, c :: ·, none⟩)) fun _ => ?_
    refine Stays.ite (fun _ => .of_takeWhile (⟨.comment, c :: ·, none⟩)) fun _ => ?_
    refine Stays.ite (fun _ => ?_) fun _ => ?_
    · refine Stays.of_run (fun run => ⟨.comment, c :: '*' :: run.text,
        if run.closed then none else some .unterminatedComment⟩) rfl fun hrest => ?_
      refine commentRun_followedBy t cs (eq_true_of_ne_false fun hopen => hrest ?_)
      exact (commentRun_of_open hopen).1
    refine Stays.ite (fun _ => ?_) fun _ => ?_
    · exact Stays.of_run (fun run => ⟨.stringLit, c :: run.text,
        if run.closed then none else some .unterminatedString⟩) rfl (quotedRun_append_of_rest t)
    refine Stays.ite (fun _ => ?_) fun _ => ?_
    · exact Stays.of_run (fun run => ⟨.quotedIdent (String.ofList run.value), c :: run.text,
        if run.closed then none else some .unterminatedIdent⟩) rfl (quotedRun_append_of_rest t)
    refine Stays.ite (fun _ => ?_) fun _ => ?_
    · refine Stays.of_run (fun run => ⟨.quotedIdent (String.ofList run.value), c :: run.text,
        if run.closed then none else some .unterminatedIdent⟩) rfl fun hrest => ?_
      refine bracketRun_followedBy t (d :: cs) (eq_true_of_ne_false fun hopen => hrest ?_)
      exact (bracketRun_of_open hopen).1
    refine Stays.ite (fun _ => positional_stays (d :: cs) t) fun _ => ?_
    refine Stays.ite (fun _ => ?_) fun _ => ?_
    · unfold named
      rw [hhead]
      refine Stays.ite (fun _ => ?_) fun _ => .of_eq rfl
      exact .of_takeWhile fun name => ⟨.bind (some (String.ofList name)), ':' :: name, none⟩
    refine Stays.ite (fun _ => .of_eq rfl) fun _ => ?_
    refine Stays.ite (fun _ => .of_eq rfl) fun _ => ?_
    refine Stays.ite (fun _ => .of_takeWhile (⟨.number, c :: ·, none⟩)) fun _ => ?_
    exact Stays.ite (fun _ => .of_takeWhile (⟨.word, c :: ·, none⟩)) fun _ => .of_eq rfl

/-- The lexemes of a text in front of another one, but the last of them, stay as they are. -/
theorem lexemes_append_of_getLast {s : List Char} {x : Lexeme}
    (hlast : (lexemes s).getLast? = some x) (t : List Char) :
    ∃ xs, lexemes s = xs ++ [x] ∧ lexemes (s ++ t) = xs ++ lexemes (x.text ++ t) := by
  fun_induction lexemes s with
  | case1 => simp at hlast
  | case2 c cs ih =>
    by_cases hrest : (lexeme c cs).2 = []
    · rw [hrest, lexemes] at hlast ⊢
      obtain rfl : (lexeme c cs).1 = x := by simpa using hlast
      have htext := lexeme_append c cs
      rw [hrest, List.append_nil] at htext
      exact ⟨[], rfl, by rw [htext]; rfl⟩
    · obtain ⟨d, ds, hds⟩ := List.exists_cons_of_ne_nil hrest
      have hlast' : (lexemes (lexeme c cs).2).getLast? = some x := by
        rw [hds, lexemes_cons] at hlast ⊢
        simpa using hlast
      obtain ⟨xs, hxs, happend⟩ := ih hlast'
      refine ⟨(lexeme c cs).1 :: xs, by rw [hxs]; rfl, ?_⟩
      rw [List.cons_append, lexemes_cons, lexeme_stays c cs t hrest, happend]
      rfl

theorem lexemes_text_of_getLast {s : List Char} {x : Lexeme}
    (hlast : (lexemes s).getLast? = some x) : lexemes x.text = [x] := by
  obtain ⟨xs, hxs, happend⟩ := lexemes_append_of_getLast hlast []
  rw [List.append_nil, List.append_nil, hxs] at happend
  exact (List.append_cancel_left happend).symm

/-- The lexemes of a text in front of another one are its own, whenever the other one starts with a
character that may come next. -/
def Joins (next : Char → Prop) (s : List Char) : Prop :=
  ∀ t, (∀ c, t.head? = some c → next c) → lexemes (s ++ t) = lexemes s ++ lexemes t

theorem lexemes_nil : lexemes [] = [] := by rw [lexemes]

theorem lexemes_blank : lexemes (Rows.blanks 1).text = [Rows.blanks 1] := by decide +kernel

theorem lexeme_space {c : Char} (hc : isSpace c = true) (cs : List Char) :
    lexeme c cs = (⟨.whitespace, c :: cs.takeWhile isSpace, none⟩, cs.dropWhile isSpace) := by
  obtain ⟨hblank, hline⟩ : Text.isBlank c = true ∧ c ≠ '\n' := by simpa [isSpace] using hc
  unfold lexeme
  rw [if_neg hline, if_pos hblank]

namespace Joins

variable {next next' : Char → Prop} {s t : List Char}

theorem nil : Joins next [] := fun t _ => by rw [lexemes_nil, List.nil_append, List.nil_append]

/-- Any text ends somewhere. -/
theorem never : Joins (fun _ => False) s := fun t ht => by
  cases t with
  | nil => rw [lexemes_nil, List.append_nil, List.append_nil]
  | cons c t => exact absurd rfl (ht c)

theorem append {c : Char} (hs : Joins next s) (hc : next c) (ht : Joins next' (c :: t)) :
    Joins next' (s ++ c :: t) := by
  have hstart : ∀ d u, (c :: t ++ u).head? = some d → next d := by
    rintro d u hd
    obtain rfl : c = d := by simpa using hd
    exact hc
  intro u hu
  have hwhole := hs (c :: t) fun d hd => hstart d [] (by simpa using hd)
  rw [List.append_assoc, hs (c :: t ++ u) fun d => hstart d u, ht u hu, hwhole, List.append_assoc]

/-- It depends on the last lexeme what may come next. -/
theorem of_getLast {x : Lexeme} (hlast : (lexemes s).getLast? = some x) (hx : Joins next x.text) :
    Joins next s := by
  intro t ht
  obtain ⟨xs, hxs, happend⟩ := lexemes_append_of_getLast hlast t
  rw [happend, hx t ht, lexemes_text_of_getLast hlast, hxs, List.append_assoc]

theorem blank : Joins (isSpace · = false) (Rows.blanks 1).text := by
  intro t ht
  cases t with
  | nil => rw [lexemes_nil, List.append_nil, List.append_nil]
  | cons c t =>
    rw [lexemes_blank]
    exact Rows.lexemes_blanks (n := 0) t (ht c rfl)

theorem mark {x : Lexeme} (hx : x = Rows.comma ∨ x = Rows.opening ∨ x = Rows.closing) :
    Joins next x.text := by
  intro t _
  have hsingle := Rows.lexemes_mark hx []
  rw [List.append_nil, lexemes_nil] at hsingle
  rw [Rows.lexemes_mark hx, hsingle]
  rfl

theorem placeholder : Joins (isIdentPart · = false) ['?'] := by
  intro t ht
  have hsplit : ∀ t : List Char, (∀ d, t.head? = some d → isIdentPart d = false) →
      lexemes ('?' :: t) = ⟨.bind none, ['?'], none⟩ :: lexemes t := by
    intro t ht
    have hmark : lexeme '?' t = positional t := by
      simp [lexeme, show Text.isBlank '?' = false by decide]
    rw [lexemes_cons, hmark, positional_of_stop ht]
  have hsingle := hsplit [] (by simp)
  rw [lexemes_nil] at hsingle
  rw [List.singleton_append, hsplit t ht, hsingle]
  rfl

theorem quoted {name : String} (h : '`' ∉ name.toList) :
    Joins (· ≠ '`') (Text.quoteName name).toList := by
  intro t ht
  have hsplit : ∀ t : List Char, t.head? ≠ some '`' →
      lexemes ((Text.quoteName name).toList ++ t) = Rows.quoted name :: lexemes t := by
    intro t ht
    rw [Rows.toList_quoteName, List.cons_append, List.append_assoc]
    exact Rows.lexemes_quoted h ht
  have hsingle := hsplit [] (by simp)
  rw [List.append_nil, lexemes_nil] at hsingle
  rw [hsplit t fun hhead => ht '`' hhead rfl, hsingle]
  rfl

end Joins

/-- A lexeme that lacks no closing mark and is not a comment up to the end of its line. -/
def Lexeme.IsComplete (x : Lexeme) : Prop := x.fault = none ∧ x.isLineComment = false

/-- What a text ends with is complete. -/
def Complete (s : List Char) : Prop := ∀ x, (lexemes s).getLast? = some x → x.IsComplete

theorem Complete.joins {s : List Char} (h : Complete s) : Joins IsBreak s := by
  cases hlast : (lexemes s).getLast? with
  | none =>
    have hnil : s = [] := by
      rw [← lexemes_flatten s, List.getLast?_eq_none_iff.1 hlast, List.flatMap_nil]
    exact hnil ▸ .nil
  | some x =>
    obtain ⟨hfault, hline⟩ := h x hlast
    have hsingle := lexemes_text_of_getLast hlast
    refine .of_getLast hlast fun t ht => ?_
    cases t with
    | nil => rw [lexemes_nil, List.append_nil, List.append_nil]
    | cons c t =>
      refine lexemes_append (ht c rfl) _ _ ?_ ?_
      · simpa [hsingle] using hfault
      · simpa [hsingle] using hline

theorem isComplete_getLast_cons {x y : Lexeme} {xs : List Lexeme} (hx : x.IsComplete)
    (hxs : ∀ z, xs.getLast? = some z → z.IsComplete) (hy : (x :: xs).getLast? = some y) :
    y.IsComplete := by
  rw [List.getLast?_cons] at hy
  obtain rfl := Option.some.inj hy
  cases hlast : xs.getLast? with
  | none => exact hx
  | some z => exact hxs z hlast

/-- A blank in front joins the blanks that a text starts with, or is a lexeme of its own. -/
theorem Complete.blank {s : List Char} (h : Complete s) : Complete (' ' :: s) := by
  have hspaces : ∀ text, (⟨.whitespace, text, none⟩ : Lexeme).IsComplete := fun _ => ⟨rfl, rfl⟩
  intro x hx
  cases s with
  | nil =>
    have hblank : lexemes [' '] = [Rows.blanks 1] := lexemes_blank
    rw [hblank] at hx
    obtain rfl := Option.some.inj hx
    exact hspaces _
  | cons c s =>
    cases hc : isSpace c with
    | false =>
      have hsplit : lexemes (' ' :: c :: s) = Rows.blanks 1 :: lexemes (c :: s) :=
        Rows.lexemes_blanks (n := 0) s hc
      rw [hsplit] at hx
      exact isComplete_getLast_cons (hspaces _) h hx
    | true =>
      rw [lexemes_cons, lexeme_space (by decide), List.dropWhile_cons_of_pos hc] at hx
      refine isComplete_getLast_cons (hspaces _) (fun z hz => h z ?_) hx
      rw [lexemes_cons, lexeme_space hc, List.getLast?_cons, hz]
      rfl

theorem Complete.after {s t : List Char} (ht : Complete t)
    (hs : (lexemes s).getLast? = some (Rows.blanks 1)) : Complete (s ++ t) := by
  obtain ⟨xs, -, happend⟩ := lexemes_append_of_getLast hs t
  intro x hx
  rw [happend, List.getLast?_append] at hx
  have hblank : lexemes ((Rows.blanks 1).text ++ t) = lexemes (' ' :: t) := rfl
  cases hlast : (lexemes (' ' :: t)).getLast? with
  | none =>
    have hnil := congrArg (List.flatMap Lexeme.text) (List.getLast?_eq_none_iff.1 hlast)
    rw [lexemes_flatten] at hnil
    cases hnil
  | some y =>
    rw [hblank, hlast] at hx
    obtain rfl : y = x := by simpa using hx
    exact ht.blank _ hlast

end DataAccess.Sql
