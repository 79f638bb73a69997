import DataAccess.Proofs.Sql.Normalization
import DataAccess.Proofs.Sql.TokenPositions

/-!
Quotations. Text of any kind can be put between quotes that are doubled inside it; the quotation is one
token that denotes the text, and what follows is read as if it stood alone, but for its positions.
-/

set_option autoImplicit false

namespace DataAccess.Sql

/-! Texts that start at another position. -/

/-- A position in a text, seen from outside when the text starts at `start`. -/
def Position.shifted (start p : Position) : Position :=
  if p.line = 1 then ⟨start.line, start.col + (p.col - 1)⟩
  else ⟨start.line + (p.line - 1), p.col⟩

/-- Lines and columns count from 1. -/
def Position.IsCounted (p : Position) : Prop := 0 < p.line ∧ 0 < p.col

theorem Position.shifted_first (start : Position) : start.shifted {} = start := by
  simp [shifted]

theorem Position.IsCounted.step {p : Position} (h : p.IsCounted) (c : Char) :
    (p.step c).IsCounted := by
  unfold Position.step
  split
  · exact ⟨Nat.succ_pos _, Nat.one_pos⟩
  · exact ⟨h.1, Nat.succ_pos _⟩

theorem Position.IsCounted.after {p : Position} (h : p.IsCounted) (text : List Char) :
    (p.after text).IsCounted := by
  induction text generalizing p with
  | nil => exact h
  | cons c text ih => exact ih (h.step c)

theorem Position.shifted_step (start : Position) {p : Position} (h : p.IsCounted) (c : Char) :
    (start.shifted p).step c = start.shifted (p.step c) := by
  obtain ⟨line, col⟩ := p
  obtain ⟨hline, hcol⟩ : 0 < line ∧ 0 < col := h
  by_cases hc : c = '\n'
  · by_cases hfirst : line = 1
    · simp [shifted, step, hc, hfirst]
    · simp [shifted, step, hc, hfirst, hline.ne']
      omega
  · by_cases hfirst : line = 1
    · simp [shifted, step, hc, hfirst]
      omega
    · simp [shifted, step, hc, hfirst]

theorem Position.shifted_after (start : Position) {p : Position} (h : p.IsCounted)
    (text : List Char) : (start.shifted p).after text = start.shifted (p.after text) := by
  induction text generalizing p with
  | nil => rfl
  | cons c text ih =>
    have hstep := ih (h.step c)
    rw [← shifted_step start h] at hstep
    exact hstep

def Token.shifted (start : Position) (t : Token) : Token := { t with pos := start.shifted t.pos }

def LexError.shifted (start : Position) (e : LexError) : LexError :=
  { e with pos := start.shifted e.pos }

/-- What is read of a text, seen from outside when the text starts at `start`. -/
def Lexed.shifted (start : Position) (l : Lexed) : Lexed :=
  ⟨l.tokens.map (Token.shifted start), l.errors.map (LexError.shifted start)⟩

theorem placed_shifted (start : Position) {p : Position} (h : p.IsCounted) (xs : List Lexeme) :
    placed (start.shifted p) xs = (placed p xs).map (Prod.map start.shifted id) := by
  induction xs generalizing p with
  | nil => rfl
  | cons x xs ih =>
    rw [placed, placed, Position.shifted_after start h, ih (h.after x.text)]
    rfl

theorem lexErrors_shifted (start : Position) (opened : List Position)
    (parts : List (Position × Lexeme)) :
    lexErrors (opened.map start.shifted) (parts.map (Prod.map start.shifted id)) =
      (lexErrors opened parts).map (LexError.shifted start) := by
  induction parts generalizing opened with
  | nil => simp [lexErrors, LexError.shifted, List.map_reverse, Function.comp_def]
  | cons part parts ih =>
    obtain ⟨p, x⟩ := part
    rw [List.map_cons, Prod.map_apply, id]
    by_cases hopen : x.kind = .lParen
    · rw [lexErrors_opening hopen, lexErrors_opening hopen]
      exact ih (p :: opened)
    by_cases hclose : x.kind = .rParen
    · cases opened with
      | nil =>
        rw [List.map_nil, lexErrors_unmatched hclose, lexErrors_unmatched hclose]
        exact congrArg (_ :: ·) (ih [])
      | cons q outer =>
        rw [List.map_cons, lexErrors_closing hclose, lexErrors_closing hclose]
        exact ih outer
    · rw [lexErrors_cons hopen hclose, lexErrors_cons hopen hclose, ih, List.map_append]
      cases x.fault <;> rfl

/-- Behind a sound lexeme that is no parenthesis a text is read as if it stood alone. -/
theorem tokenize_of_lexemes {front text : String} {x : Lexeme}
    (h : lexemes (front.toList ++ text.toList) = x :: lexemes text.toList)
    (htext : x.text = front.toList) (hfault : x.fault = none) (hopen : x.kind ≠ .lParen)
    (hclose : x.kind ≠ .rParen) :
    let rest := (tokenize text).shifted (Position.behind front.toList)
    tokenize (front ++ text) = ⟨⟨x.kind, front, {}⟩ :: rest.tokens, rest.errors⟩ := by
  have hplaced : placed (Position.after {} x.text) (lexemes text.toList) =
      (placed {} (lexemes text.toList)).map (Prod.map (Position.behind front.toList).shifted id) := by
    rw [htext, Position.after_eq_behind, ← placed_shifted _ ⟨Nat.one_pos, Nat.one_pos⟩,
      Position.shifted_first]
  have herrors := lexErrors_shifted (Position.behind front.toList) [] (placed {} (lexemes text.toList))
  rw [List.map_nil] at herrors
  intro rest
  rw [tokenize, String.toList_append, h, placed, lexErrors_cons hopen hclose, hfault, hplaced, herrors,
    List.map_cons, List.map_map]
  simp only [Token.ofPlaced, htext, String.ofList_toList, rest, Lexed.shifted, tokenize,
    List.map_map]
  rfl

/-! Quotations and the lexemes that they are. -/

inductive Quotation where
  | string
  | doubleQuotes
  | backticks
  | brackets
deriving DecidableEq, Repr

/-- A text with every quote doubled. -/
def doubled (quote : Char) (s : List Char) : List Char :=
  s.flatMap fun c => if c = quote then [c, c] else [c]

theorem doubled_of_not_mem {quote : Char} {s : List Char} (h : quote ∉ s) : doubled quote s = s := by
  induction s with
  | nil => rfl
  | cons c s ih =>
    rw [List.mem_cons, not_or] at h
    have hcons : doubled quote (c :: s) = c :: doubled quote s := by
      simp [doubled, Ne.symm h.1]
    rw [hcons, ih h.2]

namespace Quotation

def opening : Quotation → Char
  | string => '\''
  | doubleQuotes => '"'
  | backticks => '`'
  | brackets => '['

def closing : Quotation → Char
  | brackets => ']'
  | q => q.opening

/-- What stands between the quotes; there are no escapes in brackets. -/
def body : Quotation → List Char → List Char
  | brackets, s => s
  | q, s => doubled q.opening s

def write (q : Quotation) (s : String) : String :=
  String.ofList (q.opening :: (q.body s.toList ++ [q.closing]))

theorem toList_write (q : Quotation) (s : String) :
    (q.write s).toList = q.opening :: (q.body s.toList ++ [q.closing]) := String.toList_ofList

/-- The token that the quotation of a text is. -/
def kind : Quotation → String → TokenKind
  | string, _ => .stringLit
  | _, s => .quotedIdent s

/-- The text can be quoted in front of another one: brackets do not admit the bracket that closes them,
and another quote behind a closing one would be taken as doubled. -/
def Fits : Quotation → (s t : String) → Prop
  | brackets, s, _ => ']' ∉ s.toList
  | q, _, t => t.toList.head? ≠ some q.opening

/-- The lexeme that the quotation of a text is. -/
def lexeme (q : Quotation) (s : String) : Lexeme := ⟨q.kind s, (q.write s).toList, none⟩

end Quotation

theorem quotedRun_doubled {quote : Char} (s : List Char) {t : List Char}
    (h : t.head? ≠ some quote) :
    quotedRun quote (doubled quote s ++ quote :: t) = ⟨doubled quote s ++ [quote], s, true, t⟩ := by
  induction s with
  | nil =>
    cases t with
    | nil => simp [doubled, quotedRun]
    | cons d t =>
      have hd : d ≠ quote := fun hd => h (congrArg some hd)
      simp [doubled, quotedRun, hd]
  | cons c s ih =>
    by_cases hc : c = quote
    · have hdoubled : doubled quote (c :: s) = quote :: quote :: doubled quote s := by
        simp [doubled, hc]
      rw [hdoubled, List.cons_append, List.cons_append, quotedRun, if_pos rfl, if_pos rfl, ih, hc]
      rfl
    · have hdoubled : doubled quote (c :: s) = c :: doubled quote s := by
        simp [doubled, hc]
      rw [hdoubled, List.cons_append, quotedRun_cons_of_ne hc, ih]
      rfl

theorem bracketRun_of_not_mem {s : List Char} (h : ']' ∉ s) (t : List Char) :
    bracketRun (s ++ ']' :: t) = ⟨s ++ [']'], s, true, t⟩ := by
  induction s with
  | nil => simp [bracketRun]
  | cons c s ih =>
    rw [List.mem_cons, not_or] at h
    rw [List.cons_append, bracketRun, if_neg (Ne.symm h.1), ih h.2]
    rfl

/-- A quotation is a lexeme of its own, whatever the text that fits behind it. -/
theorem lexeme_quotation (q : Quotation) {s t : String} (h : q.Fits s t) :
    lexeme q.opening (q.body s.toList ++ q.closing :: t.toList) = (q.lexeme s, t.toList) := by
  rw [Quotation.lexeme, Quotation.toList_write]
  cases q with
  | string =>
    have hrun := quotedRun_doubled s.toList h
    dsimp only [Quotation.body, Quotation.opening, Quotation.closing] at hrun ⊢
    unfold lexeme
    rw [if_neg (by decide), if_neg (by decide), if_neg (by simp), if_neg (by simp), if_pos rfl, hrun]
    rfl
  | doubleQuotes | backticks =>
    have hrun := quotedRun_doubled s.toList h
    dsimp only [Quotation.body, Quotation.opening, Quotation.closing] at hrun ⊢
    unfold lexeme
    rw [if_neg (by decide), if_neg (by decide), if_neg (by simp), if_neg (by simp),
      if_neg (by decide), if_pos (by decide), hrun]
    simp [Quotation.kind]
  | brackets =>
    have hrun := bracketRun_of_not_mem h t.toList
    dsimp only [Quotation.body, Quotation.opening, Quotation.closing] at hrun ⊢
    unfold lexeme
    rw [if_neg (by decide), if_neg (by decide), if_neg (by simp), if_neg (by simp),
      if_neg (by decide), if_neg (by decide), if_pos rfl, hrun]
    simp [Quotation.kind]

/-- A quotation is read as one token that denotes the quoted text, without errors and without a
placeholder, and the text behind it is read as if it stood alone. -/
theorem tokenize_quotation (q : Quotation) {s t : String} (h : q.Fits s t) :
    let rest := (tokenize t).shifted (Position.behind (q.write s).toList)
    tokenize (q.write s ++ t) = ⟨⟨q.kind s, q.write s, {}⟩ :: rest.tokens, rest.errors⟩ := by
  have hlexemes : lexemes ((q.write s).toList ++ t.toList) = q.lexeme s :: lexemes t.toList := by
    have hwrite : (q.write s).toList ++ t.toList =
        q.opening :: (q.body s.toList ++ q.closing :: t.toList) := by
      rw [Quotation.toList_write, List.cons_append, List.append_assoc, List.singleton_append]
    rw [hwrite, lexemes_cons, lexeme_quotation q h]
  refine tokenize_of_lexemes hlexemes rfl rfl ?_ ?_
  · cases q <;> exact nofun
  · cases q <;> exact nofun

/-- The doubled quote and the colon inside belong to the text, the placeholder behind it does not. -/
theorem tokenize_quotation_apostrophe :
    Quotation.string.Fits "it's :x" "=:n" ∧
    (tokenize "'it''s :x'=:n").tokens = [⟨.stringLit, "'it''s :x'", ⟨1, 1⟩⟩, ⟨.punct, "=", ⟨1, 11⟩⟩,
      ⟨.bind (some "n"), ":n", ⟨1, 12⟩⟩] ∧
    (tokenize "'it''s :x'=:n").errors = [] := by
  have hfits : Quotation.string.Fits "it's :x" "=:n" := by
    change "=:n".toList.head? ≠ some '\''
    decide
  have hread := tokenize_quotation .string hfits
  rw [show Quotation.string.write "it's :x" ++ "=:n" = "'it''s :x'=:n" by decide +kernel] at hread
  refine ⟨hfits, ?_, ?_⟩
  · rw [hread]
    decide +kernel
  · rw [hread]
    decide +kernel

end DataAccess.Sql
