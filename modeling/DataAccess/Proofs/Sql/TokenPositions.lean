import DataAccess.Proofs.Sql.LexemeReading
import Mathlib.Data.List.Induction

/-!
Where tokens stand and what errors point at. A token stands behind the text of the tokens before it,
and an error has the position of the token that is to blame for it.
-/

set_option autoImplicit false

namespace DataAccess.Sql

/-- The position behind a text. A line break starts a new line, and columns count the characters since
the last one. -/
def Position.behind (text : List Char) : Position where
  line := text.count '\n' + 1
  col := (text.reverse.takeWhile (· ≠ '\n')).length + 1

theorem Position.after_eq_behind (text : List Char) : Position.after {} text = behind text := by
  induction text using List.reverseRecOn with
  | nil => rfl
  | append_singleton text c ih =>
    rw [Position.after_append, ih]
    by_cases hc : c = '\n'
    · simp [behind, Position.after, Position.step, hc]
    · simp [behind, Position.after, Position.step, hc]

/-! Tokens at their positions. -/

theorem placed_append (p : Position) (xs ys : List Lexeme) :
    placed p (xs ++ ys) = placed p xs ++ placed (p.after (xs.flatMap Lexeme.text)) ys := by
  induction xs generalizing p with
  | nil => rfl
  | cons x xs ih => simp [placed, ih]

def tokensFrom (p : Position) (xs : List Lexeme) : List Token := (placed p xs).map Token.ofPlaced

@[simp] theorem tokensFrom_cons (p : Position) (x : Lexeme) (xs : List Lexeme) :
    tokensFrom p (x :: xs) = Token.ofPlaced (p, x) :: tokensFrom (p.after x.text) xs := rfl

theorem tokensFrom_append (p : Position) (xs ys : List Lexeme) :
    tokensFrom p (xs ++ ys) = tokensFrom p xs ++ tokensFrom (p.after (xs.flatMap Lexeme.text)) ys := by
  simp [tokensFrom, placed_append]

/-- The text of tokens. -/
def textOf (ts : List Token) : List Char := ts.flatMap (·.text.toList)

theorem textOf_tokensFrom (p : Position) (xs : List Lexeme) :
    textOf (tokensFrom p xs) = xs.flatMap Lexeme.text := by
  induction xs generalizing p with
  | nil => rfl
  | cons x xs ih =>
    have hrest := ih (p.after x.text)
    simp only [textOf] at hrest
    simp [textOf, hrest, Token.ofPlaced]

theorem tokensFrom_eq_nil_iff {p : Position} {cs : List Char} :
    tokensFrom p (lexemes cs) = [] ↔ cs = [] := by
  have htext := textOf_tokensFrom p (lexemes cs)
  rw [lexemes_flatten] at htext
  constructor
  · intro h
    rw [← htext, h]
    rfl
  · rintro rfl
    rw [lexemes]
    rfl

theorem map_kind_tokensFrom (p : Position) (xs : List Lexeme) :
    (tokensFrom p xs).map Token.kind = xs.map Lexeme.kind := by
  rw [tokensFrom, List.map_map]
  conv_rhs => rw [← map_snd_placed p xs, List.map_map]
  rfl

/-- A token stands behind the text of the tokens before it. -/
theorem pos_of_tokensFrom {p : Position} {xs : List Lexeme} {before after : List Token} {t : Token}
    (h : tokensFrom p xs = before ++ t :: after) : t.pos = p.after (textOf before) := by
  induction before generalizing p xs with
  | nil =>
    cases xs with
    | nil => exact absurd h nofun
    | cons x xs =>
      obtain ⟨rfl, -⟩ := List.cons.inj h
      rfl
  | cons b before ih =>
    cases xs with
    | nil => exact absurd h nofun
    | cons x xs =>
      obtain ⟨rfl, htail⟩ := List.cons.inj h
      rw [ih htail]
      simp [textOf, Token.ofPlaced]

/-! Faults of single tokens. -/

theorem quotedRun_of_open {quote : Char} {cs : List Char}
    (h : (quotedRun quote cs).closed = false) :
    (quotedRun quote cs).rest = [] ∧ (quotedRun quote cs).text.count quote % 2 = 0 := by
  fun_induction quotedRun quote cs with
  | case1 => simp
  | case2 => simp at h
  | case3 c hc => simp [hc]
  | case4 rest ih =>
    obtain ⟨hrest, hcount⟩ := ih h
    refine ⟨hrest, ?_⟩
    simp only [Run.before, List.cons_append, List.nil_append, List.count_cons_self]
    omega
  | case5 => simp at h
  | case6 c d rest hc ih =>
    obtain ⟨hrest, hcount⟩ := ih h
    refine ⟨hrest, ?_⟩
    simpa [Run.before, List.count_cons, hc] using hcount

theorem bracketRun_of_open {cs : List Char} (h : (bracketRun cs).closed = false) :
    (bracketRun cs).rest = [] ∧ ']' ∉ (bracketRun cs).text := by
  fun_induction bracketRun cs with
  | case1 => simp
  | case2 => simp at h
  | case3 c rest hc ih =>
    obtain ⟨hrest, hnot⟩ := ih h
    exact ⟨hrest, by simpa [Run.before, Ne.symm hc] using hnot⟩

theorem commentRun_of_open {cs : List Char} (h : (commentRun cs).closed = false) :
    (commentRun cs).rest = [] ∧ ¬['*', '/'] <:+: (commentRun cs).text := by
  fun_induction commentRun cs with
  | case1 => simp
  | case2 c => simp [List.infix_cons_iff]
  | case3 => simp at h
  | case4 c d rest hc ih =>
    obtain ⟨hrest, hnot⟩ := ih h
    have happ := commentRun_append (d :: rest)
    rw [hrest, List.append_nil] at happ
    have htext : ((commentRun (d :: rest)).before [c] []).text = c :: d :: rest :=
      congrArg (c :: ·) happ
    rw [htext, List.infix_cons_iff]
    refine ⟨hrest, ?_⟩
    rintro (hfirst | hlater)
    · obtain ⟨rfl, rfl⟩ : '*' = c ∧ '/' = d := by simpa using hfirst
      simp at hc
    · exact hnot (happ.symm ▸ hlater)

/-- What a faulty token looks like: its kind, its text and the text behind it. Every quote in a string
or an identifier without an end is doubled. -/
def Fault.Marks (kind : TokenKind) (text rest : List Char) : Fault → Prop
  | unterminatedComment => kind = .comment ∧ rest = [] ∧
      ∃ body, text = '/' :: '*' :: body ∧ ¬['*', '/'] <:+: body
  | unterminatedString => kind = .stringLit ∧ rest = [] ∧
      ∃ body, text = '\'' :: body ∧ body.count '\'' % 2 = 0
  | unterminatedIdent => (∃ name, kind = .quotedIdent name) ∧ rest = [] ∧
      ∃ c body, text = c :: body ∧
        ((c = '"' ∨ c = '`') ∧ body.count c % 2 = 0 ∨ c = '[' ∧ ']' ∉ body)
  | malformedBind written => kind = .bind none ∧ String.ofList text = written ∧
      ∃ body, text = '?' :: body ∧ ¬body.all Char.isDigit
  | bindIndex digits => kind = .bind none ∧ text = '?' :: digits.toList ∧ digits ≠ "" ∧
      digits.toList.all Char.isDigit ∧
      (digitsValue digits.toList = 0 ∨ maxIndex < digitsValue digits.toList)
  | missingBindName => kind = .punct ∧ text = [':'] ∧ ∀ c ∈ rest.head?, isIdentStart c = false
  | unmatchedClose | unclosedOpen => False

/-- A split whose lexeme looks like its fault. -/
def Marked (split : Lexeme × List Char) : Prop :=
  ∀ f, split.1.fault = some f → f.Marks split.1.kind split.1.text split.2

namespace Marked

theorem of_none {kind : TokenKind} {text rest : List Char} : Marked (⟨kind, text, none⟩, rest) :=
  nofun

theorem of_run {kind : TokenKind} {text : List Char} {run : Run} {fault : Fault}
    (h : run.closed = false → fault.Marks kind text run.rest) :
    Marked (⟨kind, text, if run.closed then none else some fault⟩, run.rest) := by
  intro f hf
  cases hclosed : run.closed with
  | true => simp [hclosed] at hf
  | false =>
    obtain rfl : fault = f := by simpa [hclosed] using hf
    exact h hclosed

end Marked

/-- What stands behind the digits of a placeholder does not begin with a digit. -/
theorem not_all_isDigit_of_junk {cs : List Char} {p : Char → Bool}
    (h : (cs.dropWhile Char.isDigit).takeWhile p ≠ []) :
    ((cs.dropWhile Char.isDigit).takeWhile p).all Char.isDigit = false := by
  have hhead := List.head?_dropWhile_not Char.isDigit cs
  cases hrest : cs.dropWhile Char.isDigit with
  | nil => simp [hrest] at h
  | cons c rest =>
    simp only [hrest, List.head?_cons] at hhead
    cases hc : p c with
    | false => simp [hrest, hc] at h
    | true => simp [hc, hhead]

theorem spelledIndex?_eq_none {digits : List Char} (hne : digits ≠ [])
    (hdigits : digits.all Char.isDigit = true) (h : spelledIndex? digits = none) :
    digitsValue digits = 0 ∨ maxIndex < digitsValue digits := by
  simp only [spelledIndex?, ite_eq_right_iff, reduceCtorEq, imp_false, not_and] at h
  have hlarge := h hne hdigits
  omega

theorem positional_marked (cs : List Char) : Marked (positional cs) := by
  intro f hf
  simp only [positional] at hf ⊢
  split at hf
  · rename_i hjunk
    obtain rfl := Option.some.inj hf
    refine ⟨rfl, rfl, _, rfl, ?_⟩
    rw [List.all_append, not_all_isDigit_of_junk hjunk, Bool.and_false]
    exact Bool.false_ne_true
  · rename_i hjunk
    split at hf
    · rename_i hindex
      obtain rfl := Option.some.inj hf
      have hdigits : (cs.takeWhile Char.isDigit).all Char.isDigit = true :=
        List.all_eq_true.2 fun c hc => List.mem_takeWhile_imp hc
      simp only [Fault.Marks, String.toList_ofList]
      refine ⟨trivial, ?_, ?_, hdigits, spelledIndex?_eq_none hindex.1 hdigits hindex.2⟩
      · rw [not_not.1 hjunk, List.append_nil]
      · simpa using hindex.1
    · exact absurd hf.symm (Option.some_ne_none f)

theorem named_marked (cs : List Char) : Marked (named cs) := by
  refine iteInduction (fun _ => .of_none) fun hstart f hf => ?_
  obtain rfl := Option.some.inj hf
  refine ⟨rfl, rfl, fun c hc => ?_⟩
  rw [Option.mem_def.1 hc] at hstart
  simpa using hstart

theorem lexeme_marked (c : Char) (cs : List Char) : Marked (lexeme c cs) := by
  refine iteInduction (fun _ => .of_none) fun _ => ?_
  refine iteInduction (fun _ => .of_none) fun _ => ?_
  refine iteInduction (fun _ => .of_none) fun _ => ?_
  refine iteInduction (fun h => .of_run fun hopen => ?_) fun _ => ?_
  · obtain ⟨hrest, hnot⟩ := commentRun_of_open hopen
    exact ⟨rfl, hrest, _, by rw [h.1], hnot⟩
  refine iteInduction (fun h => .of_run fun hopen => ?_) fun _ => ?_
  · obtain ⟨hrest, hcount⟩ := quotedRun_of_open hopen
    exact ⟨rfl, hrest, _, by rw [h], h ▸ hcount⟩
  refine iteInduction (fun h => .of_run fun hopen => ?_) fun _ => ?_
  · obtain ⟨hrest, hcount⟩ := quotedRun_of_open hopen
    exact ⟨⟨_, rfl⟩, hrest, _, _, rfl, .inl ⟨h, hcount⟩⟩
  refine iteInduction (fun h => .of_run fun hopen => ?_) fun _ => ?_
  · obtain ⟨hrest, hnot⟩ := bracketRun_of_open hopen
    exact ⟨⟨_, rfl⟩, hrest, _, _, rfl, .inr ⟨h, hnot⟩⟩
  refine iteInduction (fun _ => positional_marked cs) fun _ => ?_
  refine iteInduction (fun _ => named_marked cs) fun _ => ?_
  refine iteInduction (fun _ => .of_none) fun _ => ?_
  refine iteInduction (fun _ => .of_none) fun _ => ?_
  refine iteInduction (fun _ => .of_none) fun _ => ?_
  exact iteInduction (fun _ => .of_none) fun _ => .of_none

/-! Parentheses. -/

/-- The tokens close a parenthesis that is open before them. -/
def ClosedWithin (ts : List Token) : Prop := depthAfter 0 (ts.map Token.kind) = none

theorem ClosedWithin.append {ts : List Token} (h : ClosedWithin ts) (us : List Token) :
    ClosedWithin (ts ++ us) := by
  unfold ClosedWithin at *
  rw [List.map_append, depthAfter_append, h]
  rfl

/-- The tokens open and close parentheses in pairs. -/
def Balanced (ts : List Token) : Prop := depthAfter 0 (ts.map Token.kind) = some 0

theorem Balanced.append {ts us : List Token} (h : Balanced ts) (h' : Balanced us) :
    Balanced (ts ++ us) := by
  unfold Balanced at *
  rw [List.map_append, depthAfter_append, h]
  exact h'

theorem balanced_singleton {t : Token} (hopen : t.kind ≠ .lParen) (hclose : t.kind ≠ .rParen) :
    Balanced [t] := by
  obtain ⟨kind, text, pos⟩ := t
  cases kind <;> first | rfl | exact absurd rfl hopen | exact absurd rfl hclose

theorem balanced_pair {o c : Token} {inner : List Token} (ho : o.kind = .lParen)
    (hc : c.kind = .rParen) (h : Balanced inner) : Balanced (o :: inner ++ [c]) := by
  have hinner : depthAfter 1 (inner.map Token.kind) = some 1 := depthAfter_add 1 h
  simp only [Balanced, List.map_append, List.map_cons, depthAfter_append, depthAfter_cons, ho, hc,
    depthStep, Option.bind_some, hinner]
  rfl

/-- A parenthesis that is opened within pairs is closed within them. -/
theorem Balanced.closedWithin {before after : List Token} {o : Token} (ho : o.kind = .lParen)
    (h : Balanced (before ++ o :: after)) : ClosedWithin after := by
  unfold Balanced at h
  rw [List.map_append, List.map_cons, depthAfter_append, ho] at h
  obtain ⟨n, -, hn⟩ := Option.bind_eq_some_iff.1 h
  have hafter : depthAfter (n + 1) (after.map Token.kind) = some 0 := hn
  cases hdepth : depthAfter 0 (after.map Token.kind) with
  | none => exact hdepth
  | some m =>
    have hopen := depthAfter_add (n + 1) hdepth
    rw [Nat.zero_add] at hopen
    exact absurd (Option.some.inj (hafter.symm.trans hopen)) (by omega)

/-- All parentheses that the tokens open are closed. -/
def AllClosed (ts : List Token) : Prop :=
  ∀ before o after, ts = before ++ o :: after → o.kind = .lParen → ClosedWithin after

theorem AllClosed.append {ts us : List Token} (h : AllClosed ts) (hus : AllClosed us) :
    AllClosed (ts ++ us) := by
  intro before o after hsplit ho
  rcases List.append_eq_append_iff.1 hsplit with ⟨as, -, hus'⟩ | ⟨bs, hts, hbs⟩
  · exact hus as o after hus' ho
  · cases bs with
    | nil => exact hus [] o after hbs.symm ho
    | cons b bs =>
      obtain ⟨rfl, rfl⟩ := List.cons.inj hbs
      exact (h before o bs hts ho).append us

theorem Balanced.allClosed {ts : List Token} (h : Balanced ts) : AllClosed ts := by
  rintro before o after rfl ho
  exact h.closedWithin ho

theorem allClosed_singleton {t : Token} (ht : t.kind ≠ .lParen) : AllClosed [t] := by
  intro before o after hsplit ho
  cases before with
  | nil =>
    obtain ⟨rfl, -⟩ := List.cons.inj hsplit
    exact absurd ho ht
  | cons b before => exact absurd (List.cons.inj hsplit).2 (by simp)

theorem allClosed_nil : AllClosed [] := by
  intro before o after hsplit
  exact absurd hsplit (by simp)

/-- The positions of the parentheses that are open behind tokens, innermost first. -/
inductive Opened : List Token → List Position → Prop where
  | nil {ts : List Token} : AllClosed ts → Opened ts []
  | cons {ts inner : List Token} {ps : List Position} {o : Token} :
      Opened ts ps → o.kind = .lParen → Balanced inner → Opened (ts ++ o :: inner) (o.pos :: ps)

namespace Opened

theorem append {ts us : List Token} {ps : List Position} (h : Opened ts ps) (hus : Balanced us) :
    Opened (ts ++ us) ps := by
  cases h with
  | nil hclosed => exact .nil (hclosed.append hus.allClosed)
  | cons hts ho hinner =>
    rw [List.append_assoc, List.cons_append]
    exact .cons hts ho (hinner.append hus)

theorem step {ts : List Token} {ps : List Position} {t : Token} (h : Opened ts ps)
    (hopen : t.kind ≠ .lParen) (hclose : t.kind ≠ .rParen) : Opened (ts ++ [t]) ps :=
  h.append (balanced_singleton hopen hclose)

theorem opening {ts : List Token} {ps : List Position} {t : Token} (h : Opened ts ps)
    (ht : t.kind = .lParen) : Opened (ts ++ [t]) (t.pos :: ps) := .cons h ht rfl

theorem closing {ts : List Token} {p : Position} {ps : List Position} {t : Token}
    (h : Opened ts (p :: ps)) (ht : t.kind = .rParen) : Opened (ts ++ [t]) ps := by
  cases h with
  | cons hts ho hinner =>
    rw [List.append_assoc]
    exact hts.append (balanced_pair ho ht hinner)

theorem allClosed {ts : List Token} (h : Opened ts []) : AllClosed ts := by
  cases h with
  | nil hclosed => exact hclosed

theorem unmatched {ts : List Token} {t : Token} (h : Opened ts []) (ht : t.kind = .rParen) :
    Opened (ts ++ [t]) [] := .nil (h.allClosed.append (allClosed_singleton (by simp [ht])))

/-- Every position in the list is that of a parenthesis that nothing closes. -/
theorem exists_of_mem {ts : List Token} {ps : List Position} {p : Position} (h : Opened ts ps)
    (hp : p ∈ ps) : ∃ before o after, ts = before ++ o :: after ∧ p = o.pos ∧ o.kind = .lParen ∧
      ¬ClosedWithin after := by
  induction h with
  | nil => exact absurd hp List.not_mem_nil
  | @cons ts inner ps o _ ho hinner ih =>
    rcases List.mem_cons.1 hp with rfl | hp
    · exact ⟨ts, o, inner, rfl, rfl, ho, fun hclosed => absurd (hinner.symm.trans hclosed) nofun⟩
    · obtain ⟨before, o', after, rfl, hpos, ho', hafter⟩ := ih hp
      refine ⟨before, o', after ++ o :: inner, by simp, hpos, ho', ?_⟩
      obtain ⟨n, hn⟩ := Option.ne_none_iff_exists'.1 hafter
      have hinner' := depthAfter_add (n + 1) hinner
      unfold ClosedWithin
      rw [List.map_append, List.map_cons, depthAfter_append, hn, ho]
      rw [Nat.zero_add] at hinner'
      simp [depthStep, hinner']

end Opened

/-- The token between `before` and `after` is to blame for a fault: it looks like it, or is a parenthesis
without a partner. -/
def Fault.CausedBy (before : List Token) (t : Token) (after : List Token) : Fault → Prop
  | unmatchedClose => t.kind = .rParen ∧ AllClosed before
  | unclosedOpen => t.kind = .lParen ∧ ¬ClosedWithin after
  | fault => fault.Marks t.kind t.text.toList (textOf after)

theorem lexErrors_opening {x : Lexeme} (h : x.kind = .lParen) (opened : List Position) (p : Position)
    (rest : List (Position × Lexeme)) :
    lexErrors opened ((p, x) :: rest) = lexErrors (p :: opened) rest := by
  simp only [lexErrors, h]

theorem lexErrors_unmatched {x : Lexeme} (h : x.kind = .rParen) (p : Position)
    (rest : List (Position × Lexeme)) :
    lexErrors [] ((p, x) :: rest) = ⟨p, .unmatchedClose⟩ :: lexErrors [] rest := by
  simp only [lexErrors, h]

theorem lexErrors_closing {x : Lexeme} (h : x.kind = .rParen) (q : Position)
    (outer : List Position) (p : Position) (rest : List (Position × Lexeme)) :
    lexErrors (q :: outer) ((p, x) :: rest) = lexErrors outer rest := by
  simp only [lexErrors, h]

theorem lexErrors_cons {x : Lexeme} (hopen : x.kind ≠ .lParen) (hclose : x.kind ≠ .rParen)
    (opened : List Position) (p : Position) (rest : List (Position × Lexeme)) :
    lexErrors opened ((p, x) :: rest) =
      (x.fault.map fun fault => ⟨p, fault⟩).toList ++ lexErrors opened rest := by
  obtain ⟨kind, text, fault⟩ := x
  cases kind <;> first
    | exact absurd rfl hopen
    | exact absurd rfl hclose
    | cases fault <;> rfl

theorem Fault.Marks.causedBy {f : Fault} {before after : List Token} {t : Token}
    (h : f.Marks t.kind t.text.toList (textOf after)) : f.CausedBy before t after := by
  cases f <;> first | exact h | exact absurd h id

/-- Every error is about a token, at the position of that token. -/
theorem causedBy_of_mem_lexErrors {cs : List Char} {before : List Token} {opened : List Position}
    {p : Position} {e : LexError} (hopened : Opened before opened)
    (he : e ∈ lexErrors opened (placed p (lexemes cs))) :
    ∃ before' t after, before ++ tokensFrom p (lexemes cs) = before' ++ t :: after ∧
      e.pos = t.pos ∧ e.fault.CausedBy before' t after := by
  fun_induction lexemes cs generalizing before opened p with
  | case1 =>
    obtain ⟨q, hq, rfl⟩ := List.mem_map.1 he
    obtain ⟨before', o, after, rfl, hpos, ho, hafter⟩ := hopened.exists_of_mem (List.mem_reverse.1 hq)
    exact ⟨before', o, after, List.append_nil _, hpos, ho, hafter⟩
  | case2 c cs ih =>
    have hmarked := lexeme_marked c cs
    generalize lexeme c cs = split at *
    obtain ⟨x, rest⟩ := split
    dsimp only at *
    -- What the later lexemes are blamed for is left to the induction.
    have hlater : ∀ {opened'}, Opened (before ++ [Token.ofPlaced (p, x)]) opened' →
        e ∈ lexErrors opened' (placed (p.after x.text) (lexemes rest)) →
        ∃ before' t after, before ++ tokensFrom p (x :: lexemes rest) = before' ++ t :: after ∧
          e.pos = t.pos ∧ e.fault.CausedBy before' t after := fun hopened' he' => by
      rw [tokensFrom_cons, List.append_cons]
      exact ih hopened' he'
    by_cases hopen : x.kind = .lParen
    · rw [placed, lexErrors_opening hopen] at he
      exact hlater (hopened.opening hopen) he
    by_cases hclose : x.kind = .rParen
    · cases opened with
      | nil =>
        rw [placed, lexErrors_unmatched hclose] at he
        rcases List.mem_cons.1 he with rfl | he
        · exact ⟨before, _, _, rfl, rfl, hclose, hopened.allClosed⟩
        · exact hlater (hopened.unmatched hclose) he
      | cons q outer =>
        rw [placed, lexErrors_closing hclose] at he
        exact hlater (hopened.closing hclose) he
    · rw [placed, lexErrors_cons hopen hclose] at he
      rcases List.mem_append.1 he with hfault | he
      · obtain ⟨f, hf, rfl⟩ := by simpa using hfault
        refine ⟨before, _, tokensFrom (p.after x.text) (lexemes rest), rfl, rfl,
          Fault.Marks.causedBy ?_⟩
        rw [textOf_tokensFrom, lexemes_flatten]
        simpa [Token.ofPlaced] using hmarked f hf
      · exact hlater (hopened.step hopen hclose) he

end DataAccess.Sql
