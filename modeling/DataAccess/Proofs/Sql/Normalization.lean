import DataAccess.Proofs.Sql.Sections

/-!
Normalized texts. Putting a bare `?` in the place of a placeholder changes what the characters around
it stand next to, but no lexeme looks at more of what follows it than whether that could continue it.
So the tokens of the normalized text are those of the text, the placeholders aside.
-/

set_option autoImplicit false

namespace DataAccess.Sql

namespace TokenKind

def isBind : TokenKind → Bool
  | bind _ => true
  | _ => false

end TokenKind

/-- The lexeme in the normalized text. -/
def Lexeme.nameless (x : Lexeme) : Lexeme :=
  if x.kind.isBind then ⟨.bind none, ['?'], none⟩ else x

/-- Texts that a lexeme cannot tell apart when they stand behind it: the second one starts like the
first, or with `?` where the first starts with a placeholder. -/
inductive Alike : List Char → List Char → Prop
  | nil : Alike [] []
  | same (c : Char) (s t : List Char) : Alike (c :: s) (c :: t)
  | mark (c : Char) (s t : List Char) (hc : c = '?' ∨ c = ':') : Alike (c :: s) ('?' :: t)

namespace Alike

theorem append {s t : List Char} (h : Alike s t) (u : List Char) : Alike (u ++ s) (u ++ t) := by
  cases u with
  | nil => exact h
  | cons c u => exact .same c (u ++ s) (u ++ t)

theorem head?_eq_iff {s t : List Char} (h : Alike s t) {d : Char} (hd : d ≠ '?' ∧ d ≠ ':') :
    t.head? = some d ↔ s.head? = some d := by
  cases h with
  | nil | same => exact Iff.rfl
  | mark c s t hc =>
    have hc : c ≠ d := by rintro rfl; exact hc.elim hd.1 hd.2
    simp [hc, hd.1.symm]

theorem head?_any_iff {s t : List Char} (h : Alike s t) {p : Char → Bool} (hp : p '?' = p ':') :
    t.head?.any p = true ↔ s.head?.any p = true := by
  cases h with
  | nil | same => exact Iff.rfl
  | mark c s t hc => rcases hc with rfl | rfl <;> simp [hp]

/-- A run that stops before the first text stops before the second. -/
theorem takeWhile_eq {p : Char → Bool} (hp : p '?' = p ':') {cs t : List Char}
    (h : Alike (cs.dropWhile p) t) :
    (cs.takeWhile p ++ t).takeWhile p = cs.takeWhile p ∧ (cs.takeWhile p ++ t).dropWhile p = t := by
  have hstop : t.takeWhile p = [] ∧ t.dropWhile p = t := by
    have hfirst := List.head?_dropWhile_not p cs
    generalize cs.dropWhile p = rest at h hfirst
    cases h with
    | nil => exact ⟨rfl, rfl⟩
    | same c s t => simp [show p c = false by simpa using hfirst]
    | mark c s t hc =>
      have hmark : p '?' = false := by
        rcases hc with rfl | rfl
        · simpa using hfirst
        · rw [hp]
          simpa using hfirst
      simp [hmark]
  have hall : ∀ c ∈ cs.takeWhile p, p c = true := fun c => List.mem_takeWhile_imp
  rw [List.takeWhile_append_of_pos hall, List.dropWhile_append_of_pos hall, hstop.1, hstop.2]
  exact ⟨List.append_nil _, rfl⟩

end Alike

/-- The same run with another text behind it. -/
def Run.withRest (run : Run) (t : List Char) : Run := { run with rest := t }

theorem quotedRun_cons_of_ne {quote c : Char} (hc : c ≠ quote) (cs : List Char) :
    quotedRun quote (c :: cs) = (quotedRun quote cs).before [c] [c] := by
  cases cs <;> simp [quotedRun, hc, Run.before]

theorem quotedRun_withRest {quote : Char} (hquote : quote ≠ '?') {cs t : List Char}
    (h : Alike (quotedRun quote cs).rest t) :
    quotedRun quote ((quotedRun quote cs).text ++ t) = (quotedRun quote cs).withRest t := by
  fun_induction quotedRun quote cs with
  | case1 | case2 | case3 => cases h; simp [quotedRun, Run.withRest, *]
  | case4 rest ih => simp [quotedRun, ih h, Run.before, Run.withRest]
  | case5 d rest hd =>
    cases h with
    | same => simp [quotedRun, Run.withRest, hd]
    | mark => simp [quotedRun, Run.withRest, hquote.symm]
  | case6 c d rest hc ih =>
    change quotedRun quote (c :: ((quotedRun quote (d :: rest)).text ++ t)) = _
    rw [quotedRun_cons_of_ne hc, ih h]
    rfl

theorem bracketRun_withRest {cs t : List Char} (h : Alike (bracketRun cs).rest t) :
    bracketRun ((bracketRun cs).text ++ t) = (bracketRun cs).withRest t := by
  fun_induction bracketRun cs with
  | case1 => cases h; rfl
  | case2 => simp [bracketRun, Run.withRest]
  | case3 c rest hc ih =>
    simp only [Run.before] at h
    simp [bracketRun, hc, ih h, Run.before, Run.withRest]

theorem commentRun_cons_of_open {c : Char} {cs : List Char}
    (h : ¬(c = '*' ∧ cs.head? = some '/')) :
    commentRun (c :: cs) = (commentRun cs).before [c] [] := by
  cases cs with
  | nil => rfl
  | cons d cs => rw [commentRun, if_neg (by simpa using h)]

theorem commentRun_withRest {cs t : List Char} (h : Alike (commentRun cs).rest t) :
    commentRun ((commentRun cs).text ++ t) = (commentRun cs).withRest t := by
  fun_induction commentRun cs with
  | case1 | case2 => cases h; rfl
  | case3 => simp_all [commentRun, Run.withRest]
  | case4 c d rest hc ih =>
    have hnext := Alike.append (s := (commentRun (d :: rest)).rest) h (commentRun (d :: rest)).text
    rw [commentRun_append] at hnext
    have hopen : ¬(c = '*' ∧ ((commentRun (d :: rest)).text ++ t).head? = some '/') := by
      rw [hnext.head?_eq_iff (by decide)]
      simpa using hc
    change commentRun (c :: ((commentRun (d :: rest)).text ++ t)) = _
    rw [commentRun_cons_of_open hopen, ih h]
    rfl

/-- A split of the text `u ++ s` into a lexeme and `s`, and the split of the same text with `t` behind
`u`: the lexeme is the same if it is no placeholder. -/
def Swaps (cs t : List Char) (split split' : Lexeme × List Char) : Prop :=
  split.1.text.tail ++ t = cs → Alike split.2 t → split.1.kind.isBind = false →
    split' = (split.1, t)

namespace Swaps

theorem ite {p q : Prop} [Decidable p] [Decidable q] {cs t : List Char}
    {a b a' b' : Lexeme × List Char} (hpq : q ↔ p) (ha : p → Swaps cs t a a')
    (hb : ¬p → Swaps cs t b b') : Swaps cs t (if p then a else b) (if q then a' else b') := by
  by_cases h : p
  · rw [if_pos h, if_pos (hpq.2 h)]
    exact ha h
  · rw [if_neg h, if_neg (mt hpq.1 h)]
    exact hb h

theorem of_char {c : Char} {kind : TokenKind} {fault : Option Fault} {cs cs' t : List Char} :
    Swaps cs' t (⟨kind, [c], fault⟩, cs) (⟨kind, [c], fault⟩, cs') := by
  intro hcs _ _
  rw [← hcs]
  rfl

theorem of_takeWhile {p : Char → Bool} (hp : p '?' = p ':') {c : Char} {kind : TokenKind}
    {cs cs' t : List Char} :
    Swaps cs' t (⟨kind, c :: cs.takeWhile p, none⟩, cs.dropWhile p)
      (⟨kind, c :: cs'.takeWhile p, none⟩, cs'.dropWhile p) := by
  intro hcs ht _
  obtain ⟨htake, hdrop⟩ := Alike.takeWhile_eq hp ht
  rw [← hcs, List.tail_cons, htake, hdrop]

/-- A lexeme whose text a run decides. -/
theorem of_run {run run' : Run} {cs t : List Char} {fault : Fault}
    (f : Run → TokenKind × List Char) (hf : f (run.withRest t) = f run)
    (h : (f run).2.tail ++ t = cs → Alike run.rest t → run' = run.withRest t) :
    Swaps cs t
      (⟨(f run).1, (f run).2, if run.closed then none else some fault⟩, run.rest)
      (⟨(f run').1, (f run').2, if run'.closed then none else some fault⟩, run'.rest) := by
  intro hcs ht _
  rw [h hcs ht, hf]
  rfl

end Swaps

theorem named_swaps {cs cs' t : List Char} (hcs : Alike cs cs') :
    Swaps cs' t (named cs) (named cs') := by
  refine Swaps.ite (hcs.head?_any_iff (by decide)) (fun _ _ _ hkind => ?_) fun _ => Swaps.of_char
  exact absurd hkind nofun

theorem positional_swaps {cs cs' t : List Char} : Swaps cs' t (positional cs) (positional cs') :=
  fun _ _ hkind => absurd hkind nofun

theorem lexeme_swaps {cs cs' : List Char} (hcs : Alike cs cs') (c : Char) (t : List Char) :
    Swaps cs' t (lexeme c cs) (lexeme c cs') := by
  refine Swaps.ite Iff.rfl (fun _ => Swaps.of_char) fun _ => ?_
  refine Swaps.ite Iff.rfl (fun _ => Swaps.of_takeWhile (by decide)) fun _ => ?_
  refine Swaps.ite (and_congr_right fun _ => hcs.head?_eq_iff (by decide))
    (fun _ => Swaps.of_takeWhile (by decide)) fun _ => ?_
  refine Swaps.ite (and_congr_right fun _ => hcs.head?_eq_iff (by decide)) (fun h => ?_) fun _ => ?_
  · refine Swaps.of_run (fun run => (.comment, c :: '*' :: run.text)) rfl
      fun hcs ht => ?_
    rw [← hcs]
    exact commentRun_withRest ht
  refine Swaps.ite Iff.rfl (fun h => ?_) fun _ => ?_
  · refine Swaps.of_run (fun run => (.stringLit, c :: run.text)) rfl
      fun hcs ht => ?_
    rw [← hcs]
    exact quotedRun_withRest (by simp [h]) ht
  refine Swaps.ite Iff.rfl (fun h => ?_) fun _ => ?_
  · refine Swaps.of_run (fun run => (.quotedIdent (String.ofList run.value), c :: run.text)) rfl
      fun hcs ht => ?_
    rw [← hcs]
    exact quotedRun_withRest (by rintro rfl; simp at h) ht
  refine Swaps.ite Iff.rfl (fun h => ?_) fun _ => ?_
  · refine Swaps.of_run (fun run => (.quotedIdent (String.ofList run.value), c :: run.text)) rfl
      fun hcs ht => ?_
    rw [← hcs]
    exact bracketRun_withRest ht
  refine Swaps.ite Iff.rfl (fun _ => positional_swaps) fun _ => ?_
  refine Swaps.ite Iff.rfl (fun _ => named_swaps hcs) fun _ => ?_
  refine Swaps.ite Iff.rfl (fun _ => Swaps.of_char) fun _ => ?_
  refine Swaps.ite Iff.rfl (fun _ => Swaps.of_char) fun _ => ?_
  refine Swaps.ite Iff.rfl (fun _ => Swaps.of_takeWhile (by decide)) fun _ => ?_
  exact Swaps.ite Iff.rfl (fun _ => Swaps.of_takeWhile (by decide)) fun _ => Swaps.of_char

/-- A lexeme takes the first character and leaves the rest of the text behind it. -/
theorem exists_lexeme_text (c : Char) (cs : List Char) :
    ∃ u, (lexeme c cs).1.text = c :: u ∧ u ++ (lexeme c cs).2 = cs := by
  obtain ⟨d, u, hd⟩ := List.exists_cons_of_ne_nil (lexeme_text_ne_nil c cs)
  have happ := lexeme_append c cs
  rw [hd, List.cons_append, List.cons.injEq] at happ
  exact ⟨u, by rw [hd, happ.1], happ.2⟩

/-- A lexeme that is no placeholder is split off again from a text that goes on alike. -/
theorem lexemes_append_of_alike {c : Char} {cs t : List Char}
    (hkind : (lexeme c cs).1.kind.isBind = false) (ht : Alike (lexeme c cs).2 t) :
    lexemes ((lexeme c cs).1.text ++ t) = (lexeme c cs).1 :: lexemes t := by
  obtain ⟨u, hu, hcs⟩ := exists_lexeme_text c cs
  have halike : Alike cs (u ++ t) := by
    have h := ht.append u
    rwa [hcs] at h
  have hsplit := lexeme_swaps halike c t (by rw [hu, List.tail_cons]) ht hkind
  rw [hu, List.cons_append, lexemes_cons, hsplit]

/-- A split whose lexeme, when it is a placeholder, starts with one of the two marks and ends where
no name or number can go on. -/
def BindEnds (c : Char) (split : Lexeme × List Char) : Prop :=
  split.1.kind.isBind = true →
    (c = '?' ∨ c = ':') ∧ ∀ d, split.2.head? = some d → isIdentPart d = false

theorem BindEnds.of_other {c : Char} {x : Lexeme} {rest : List Char} (hx : x.kind.isBind = false) :
    BindEnds c (x, rest) := fun hkind => absurd (hx.symm.trans hkind) nofun

theorem head?_dropWhile_isIdentPart {cs : List Char} {d : Char}
    (h : (cs.dropWhile isIdentPart).head? = some d) : isIdentPart d = false := by
  have hfirst := List.head?_dropWhile_not isIdentPart cs
  rw [h] at hfirst
  simpa using hfirst

theorem named_bindEnds (cs : List Char) : BindEnds ':' (named cs) := by
  refine iteInduction (fun _ _ => ⟨.inr rfl, fun _ => head?_dropWhile_isIdentPart⟩) fun _ => ?_
  exact BindEnds.of_other rfl

theorem positional_bindEnds (cs : List Char) : BindEnds '?' (positional cs) :=
  fun _ => ⟨.inl rfl, fun _ => head?_dropWhile_isIdentPart⟩

theorem lexeme_bindEnds (c : Char) (cs : List Char) : BindEnds c (lexeme c cs) := by
  unfold lexeme
  repeat' with_reducible refine iteInduction (fun _ => ?_) fun _ => ?_
  all_goals first
    | exact BindEnds.of_other rfl
    | exact ‹c = '?'› ▸ positional_bindEnds cs
    | exact ‹c = ':'› ▸ named_bindEnds cs

theorem isIdentPart_of_isDigit {c : Char} (h : c.isDigit = true) : isIdentPart c = true := by
  have hc : c.val < 128 := by
    simp only [Char.isDigit, Bool.and_eq_true, decide_eq_true_eq] at h
    exact UInt32.lt_of_le_of_lt h.2 (by decide)
  simp [isIdentPart, Text.isAlphanumeric, Text.isNumeric, hc, h]

theorem positional_of_stop {t : List Char} (h : ∀ d, t.head? = some d → isIdentPart d = false) :
    positional t = (⟨.bind none, ['?'], none⟩, t) := by
  cases t with
  | nil => rfl
  | cons d t =>
    have hident : isIdentPart d = false := h d rfl
    have hdigit : d.isDigit = false := by
      by_contra hd
      rw [isIdentPart_of_isDigit (by simpa using hd)] at hident
      exact absurd hident nofun
    simp [positional, hident, hdigit]

/-- A bare `?` in the place of a placeholder is a placeholder again. -/
theorem lexemes_mark_of_alike {c : Char} {cs t : List Char}
    (hkind : (lexeme c cs).1.kind.isBind = true) (ht : Alike (lexeme c cs).2 t) :
    lexemes ('?' :: t) = ⟨.bind none, ['?'], none⟩ :: lexemes t := by
  obtain ⟨-, hends⟩ := lexeme_bindEnds c cs hkind
  have hstop : ∀ d, t.head? = some d → isIdentPart d = false := by
    intro d hd
    generalize (lexeme c cs).2 = rest at ht hends
    cases ht with
    | nil => exact absurd hd nofun
    | same => exact hends d hd
    | mark =>
      obtain rfl := Option.some.inj hd
      decide
  have hmark : lexeme '?' t = positional t := by
    simp [lexeme, show Text.isBlank '?' = false by decide]
  rw [lexemes_cons, hmark, positional_of_stop hstop]

/-- The characters of a text whose placeholders are replaced. -/
def namelessText (xs : List Lexeme) : List Char := xs.flatMap fun x => x.nameless.text

theorem namelessText_cons (x : Lexeme) (xs : List Lexeme) :
    namelessText (x :: xs) = x.nameless.text ++ namelessText xs := List.flatMap_cons

theorem alike_namelessText (cs : List Char) : Alike cs (namelessText (lexemes cs)) := by
  cases cs with
  | nil =>
    rw [lexemes]
    exact .nil
  | cons c cs =>
    rw [lexemes_cons, namelessText_cons, Lexeme.nameless]
    cases hkind : (lexeme c cs).1.kind.isBind with
    | true => exact .mark c cs _ (lexeme_bindEnds c cs hkind).1
    | false =>
      obtain ⟨u, hu, -⟩ := exists_lexeme_text c cs
      simp only [Bool.false_eq_true, ↓reduceIte, hu]
      exact .same c cs _

/-- The lexemes of the text with its placeholders replaced are the lexemes with the placeholders
replaced. -/
theorem lexemes_namelessText (cs : List Char) :
    lexemes (namelessText (lexemes cs)) = (lexemes cs).map Lexeme.nameless := by
  fun_induction lexemes cs with
  | case1 => simp [namelessText, lexemes]
  | case2 c cs ih =>
    have ht := alike_namelessText (lexeme c cs).2
    rw [namelessText_cons, List.map_cons, ← ih, Lexeme.nameless]
    cases hkind : (lexeme c cs).1.kind.isBind with
    | true => exact lexemes_mark_of_alike hkind ht
    | false => exact lexemes_append_of_alike hkind ht

theorem normalizedText_lexemes (cs : List Char) :
    (normalizedText (lexemes cs)).toList = namelessText (lexemes cs) := by
  rw [normalizedText, String.toList_join, List.flatMap_map]
  fun_induction lexemes cs with
  | case1 => rfl
  | case2 c cs ih =>
    rw [List.flatMap_cons, namelessText_cons, ih]
    congr 1
    have hbreak := lexeme_breaksPlainly c cs
    unfold BreaksPlainly at hbreak
    generalize (lexeme c cs).1 = x at hbreak
    obtain ⟨kind, text, fault⟩ := x
    cases kind with
    | newLine => simp [hbreak rfl, Token.normalized, Token.ofLexeme, Lexeme.nameless, TokenKind.isBind]
    | _ => simp [Token.normalized, Token.ofLexeme, Lexeme.nameless, TokenKind.isBind]

/-- The token in the normalized text, without its position. -/
def Token.nameless (t : Token) : Token :=
  if t.kind.isBind then ⟨.bind none, "?", {}⟩ else t.unplaced

theorem Token.nameless_ofLexeme (x : Lexeme) :
    (Token.ofLexeme x).nameless = Token.ofLexeme x.nameless := by
  cases hkind : x.kind.isBind <;>
    simp [Token.nameless, Lexeme.nameless, Token.ofLexeme, Token.unplaced, hkind]

theorem map_nameless_tokenize (text : String) :
    (tokenize text).tokens.map Token.nameless =
      ((lexemes text.toList).map Lexeme.nameless).map Token.ofLexeme := by
  have h := congrArg (List.map Token.nameless) (map_unplaced_tokenize text)
  rw [List.map_map, List.map_map] at h
  rw [List.map_map, show Token.ofLexeme ∘ Lexeme.nameless = Token.nameless ∘ Token.ofLexeme from
    funext fun x => (Token.nameless_ofLexeme x).symm, ← h]
  rfl

theorem bindsOf_nameless (xs : List Lexeme) :
    bindsOf (xs.map Lexeme.nameless) = (bindsOf xs).map fun _ => ("?", none) := by
  rw [bindsOf, List.filterMap_map, bindsOf, List.map_filterMap]
  congr 1
  funext ⟨kind, text, fault⟩
  cases kind <;> rfl

theorem nameless_nameless (x : Lexeme) : x.nameless.nameless = x.nameless := by
  cases hkind : x.kind.isBind <;> simp [Lexeme.nameless, hkind]

/-- Normalizing is faithful. Whatever is wrong with a text, its normalized text has the same tokens in
the same order, with a bare `?` for each placeholder, so it has as many placeholders and normalizing
it again changes nothing. -/
theorem Query.tokenize_normalized (text : String) :
    let normalized := (parse text).normalized
    (tokenize normalized).tokens.map Token.unplaced = (tokenize text).tokens.map Token.nameless ∧
    (parse normalized).normalized = normalized ∧
    (parse normalized).binds = (parse text).binds.map fun _ => ("?", none) := by
  intro normalized
  have hchars : normalized.toList = namelessText (lexemes text.toList) := by
    rw [← normalizedText_lexemes]
    exact congrArg String.toList (parseWith_normalized _ text)
  have hlexemes : lexemes normalized.toList = (lexemes text.toList).map Lexeme.nameless := by
    rw [hchars, lexemes_namelessText]
  refine ⟨?_, ?_, ?_⟩
  · rw [map_unplaced_tokenize, hlexemes, map_nameless_tokenize]
  · refine (parseWith_normalized _ normalized).trans (String.toList_inj.1 ?_)
    rw [normalizedText_lexemes, hlexemes, hchars, namelessText, namelessText, List.flatMap_map]
    simp only [nameless_nameless]
  · have h := parseWith_binds Grammar.summary? normalized
    rw [hlexemes, bindsOf_nameless, ← parseWith_binds Grammar.summary? text] at h
    exact h

end DataAccess.Sql
