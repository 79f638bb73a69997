import DataAccess.Proofs.Sql.LexemeSplit
import DataAccess.Sql.Query

/-!
What a query reads of its text depends on the lexemes alone and not on their positions: whether the
text has errors, its placeholders, its normalized text and its keywords.
-/

set_option autoImplicit false

namespace DataAccess.Sql

/-- The number of open parentheses after a lexeme; none when it closes one without a partner. -/
def depthStep : Nat → TokenKind → Option Nat
  | n, .lParen => some (n + 1)
  | 0, .rParen => none
  | n + 1, .rParen => some n
  | n, _ => some n

def depthAfter (n : Nat) (kinds : List TokenKind) : Option Nat := kinds.foldlM depthStep n

@[simp] theorem depthAfter_nil (n : Nat) : depthAfter n [] = some n := rfl

@[simp] theorem depthAfter_cons (n : Nat) (k : TokenKind) (ks : List TokenKind) :
    depthAfter n (k :: ks) = (depthStep n k).bind (depthAfter · ks) := rfl

theorem depthAfter_append (n : Nat) (xs ys : List TokenKind) :
    depthAfter n (xs ++ ys) = (depthAfter n xs).bind (depthAfter · ys) := by
  simp [depthAfter, List.foldlM_append]

theorem depthStep_add {n m : Nat} {k : TokenKind} (l : Nat) (h : depthStep n k = some m) :
    depthStep (n + l) k = some (m + l) := by
  cases k with
  | lParen =>
    obtain rfl : n + 1 = m := Option.some.inj h
    exact congrArg some (Nat.add_right_comm n l 1)
  | rParen =>
    cases n with
    | zero => exact absurd h nofun
    | succ n =>
      obtain rfl : n = m := Option.some.inj h
      rw [Nat.add_right_comm]
      rfl
  | _ =>
    have hn : n = m := by cases n <;> exact Option.some.inj h
    subst hn
    cases n + l <;> rfl

/-- Open parentheses around a text do not matter to it. -/
theorem depthAfter_add {n m : Nat} {ks : List TokenKind} (l : Nat)
    (h : depthAfter n ks = some m) : depthAfter (n + l) ks = some (m + l) := by
  induction ks generalizing n with
  | nil => simpa using h
  | cons k ks ih =>
    obtain ⟨i, hi, hrest⟩ := Option.bind_eq_some_iff.1 h
    rw [depthAfter_cons, depthStep_add l hi]
    exact ih hrest

/-- A text whose lexemes are all sound and whose parentheses have partners. -/
structure Wellformed (xs : List Lexeme) : Prop where
  fault : ∀ x ∈ xs, x.fault = none
  balanced : depthAfter 0 (xs.map Lexeme.kind) = some 0

def Lexeme.isParen (x : Lexeme) : Prop := x.kind = .lParen ∨ x.kind = .rParen

/-- A split whose lexeme is not a faulty parenthesis. -/
def ParenSound (split : Lexeme × List Char) : Prop := split.1.isParen → split.1.fault = none

theorem ParenSound.ite {p : Prop} [Decidable p] {a b : Lexeme × List Char}
    (ha : ParenSound a) (hb : ParenSound b) : ParenSound (if p then a else b) := by
  split
  · exact ha
  · exact hb

theorem lexeme_parenSound (c : Char) (cs : List Char) : ParenSound (lexeme c cs) := by
  unfold lexeme named
  repeat' apply ParenSound.ite
  all_goals simp [ParenSound, Lexeme.isParen, positional]

theorem lexemes_fault_of_isParen {cs : List Char} {x : Lexeme} (hx : x ∈ lexemes cs)
    (h : x.isParen) : x.fault = none := by
  fun_induction lexemes cs with
  | case1 => simp at hx
  | case2 c cs ih =>
    rcases List.mem_cons.1 hx with rfl | hx
    · exact lexeme_parenSound c cs h
    · exact ih hx

theorem lexErrors_eq_nil_iff (opened : List Position) (p : Position) (xs : List Lexeme)
    (hparen : ∀ x ∈ xs, x.isParen → x.fault = none) :
    lexErrors opened (placed p xs) = [] ↔
      (∀ x ∈ xs, x.fault = none) ∧ depthAfter opened.length (xs.map Lexeme.kind) = some 0 := by
  induction xs generalizing opened p with
  | nil => simp [placed, lexErrors]
  | cons x xs ih =>
    have ih' := fun opened p => ih opened p fun y hy => hparen y (by simp [hy])
    have hx := hparen x (by simp)
    obtain ⟨kind, text, fault⟩ := x
    cases kind with
    | lParen =>
      have hf : fault = none := hx (.inl rfl)
      simp [placed, lexErrors, ih', hf, depthStep]
    | rParen =>
      have hf : fault = none := hx (.inr rfl)
      cases opened <;> simp [placed, lexErrors, ih', hf, depthStep]
    | _ => cases fault <;> cases hl : opened.length <;> simp [placed, lexErrors, ih', depthStep, hl]

/-- A text has no errors when its lexemes are well-formed. -/
theorem tokenize_errors_eq_nil_iff (text : String) :
    (tokenize text).errors = [] ↔ Wellformed (lexemes text.toList) := by
  have h := lexErrors_eq_nil_iff [] {} (lexemes text.toList) fun _ => lexemes_fault_of_isParen
  exact h.trans ⟨fun ⟨hf, hb⟩ => ⟨hf, hb⟩, fun ⟨hf, hb⟩ => ⟨hf, hb⟩⟩

namespace Token

/-- A token without its position. -/
def unplaced (t : Token) : Token := { t with pos := {} }

def ofLexeme (x : Lexeme) : Token := ⟨x.kind, String.ofList x.text, {}⟩

/-- The token in the normalized text. -/
def normalized (t : Token) : String :=
  match t.kind with
  | .bind _ => "?"
  | .newLine => "\n"
  | _ => t.text

def bind? (t : Token) : Option (String × Option String) :=
  match t.kind with
  | .bind name => some (t.text, name)
  | _ => none

end Token

theorem map_unplaced_tokenize (text : String) :
    (tokenize text).tokens.map Token.unplaced = (lexemes text.toList).map Token.ofLexeme := by
  rw [tokenize, List.map_map, ← map_snd_placed {} (lexemes text.toList), List.map_map]
  rw [map_snd_placed]
  rfl

theorem normalizedText_cons (t : Token) (sections : List Section) :
    Query.normalizedText (Section.cons t sections) = t.normalized ++ Query.normalizedText sections := by
  obtain ⟨kind, text, pos⟩ := t
  cases kind with
  | newLine => simp [Section.cons, Query.normalizedText, Token.normalized, Section.source]
  | bind => simp [Section.cons, Query.normalizedText, Token.normalized]
  | _ =>
    rcases sections with _ | ⟨_ | _ | _, rest⟩ <;>
      simp [Section.cons, Query.normalizedText, Token.normalized, Section.source,
        String.append_assoc]

theorem normalizedText_ofTokens (ts : List Token) :
    Query.normalizedText (Section.ofTokens ts) = String.join (ts.map Token.normalized) := by
  induction ts with
  | nil => rfl
  | cons t ts ih =>
    rw [Section.ofTokens, List.foldr_cons, normalizedText_cons, ← Section.ofTokens, ih]
    simp

theorem binds_cons (q : Query) (t : Token) (sections : List Section) :
    Query.binds { q with sections := Section.cons t sections } =
      t.bind?.toList ++ Query.binds { q with sections := sections } := by
  obtain ⟨kind, text, pos⟩ := t
  cases kind with
  | newLine | bind => rfl
  | _ => rcases sections with _ | ⟨_ | _ | _, rest⟩ <;> rfl

theorem binds_ofTokens (q : Query) (ts : List Token) :
    Query.binds { q with sections := Section.ofTokens ts } = ts.filterMap Token.bind? := by
  induction ts with
  | nil => rfl
  | cons t ts ih =>
    rw [Section.ofTokens, List.foldr_cons, binds_cons, ← Section.ofTokens, ih, List.filterMap_cons]
    cases t.bind? <;> rfl

namespace KeywordScan

theorem pairs_map {α β : Type} (f : α → β) (xs : List α) :
    pairs (xs.map f) = (pairs xs).map (Prod.map f f) := by
  simp only [pairs, ← List.map_tail, List.zip_map]

theorem significant_unplaced (ts : List Token) :
    significant (ts.map Token.unplaced) = (significant ts).map Token.unplaced := by
  simp only [significant, List.filter_map]
  rfl

theorem startsWithCommonTable_unplaced (ts : List Token) :
    startsWithCommonTable (ts.map Token.unplaced) = startsWithCommonTable ts := by
  cases ts <;> rfl

theorem kind_unplaced (ts : List Token) : kind (ts.map Token.unplaced) = kind ts := by
  simp only [kind, List.find?_map, startsWithCommonTable_unplaced, List.map_map]
  cases h : ts.find? ((fun t => decide (t.kind = .word)) ∘ Token.unplaced) with
  | none =>
    rw [show ts.find? (fun t => decide (t.kind = .word)) = none from h]
    rfl
  | some first =>
    rw [show ts.find? (fun t => decide (t.kind = .word)) = some first from h]
    rfl

theorem commonTables_unplaced (ts : List Token) :
    commonTables (ts.map Token.unplaced) = commonTables ts := by
  rw [commonTables, startsWithCommonTable_unplaced, pairs_map, List.filterMap_map]
  rfl

/-- The names that keywords introduce as tables. -/
def introduced (ts : List Token) : List String := (pairs ts).filterMap introduced?

theorem introduced_unplaced (ts : List Token) :
    introduced (ts.map Token.unplaced) = introduced ts := by
  rw [introduced, pairs_map, List.filterMap_map]
  rfl

/-- The keywords of a text do not depend on where they stand. -/
theorem summary_unplaced (ts : List Token) : summary (ts.map Token.unplaced) = summary ts := by
  have hnames := introduced_unplaced (significant ts)
  simp only [introduced] at hnames
  simp only [summary, significant_unplaced, kind_unplaced, commonTables_unplaced, hnames]

end KeywordScan

/-- The text of lexemes with a bare `?` for each placeholder. -/
def normalizedText (xs : List Lexeme) : String :=
  String.join (xs.map fun x => (Token.ofLexeme x).normalized)

theorem normalizedText_append (xs ys : List Lexeme) :
    normalizedText (xs ++ ys) = normalizedText xs ++ normalizedText ys := by
  simp [normalizedText]

/-- The placeholders among lexemes. -/
def bindsOf (xs : List Lexeme) : List (String × Option String) :=
  xs.filterMap fun x => (Token.ofLexeme x).bind?

/-- What is read of lexemes without errors. -/
def summaryOf (grammar : List Char → Option Summary) (xs : List Lexeme) : Summary :=
  (grammar (normalizedText xs).toList).getD (KeywordScan.summary (xs.map Token.ofLexeme))

section ParseWith

variable (grammar : List Char → Option Summary) (text : String)

theorem tokenize_normalizedText :
    Query.normalizedText (Section.ofTokens (tokenize text).tokens) =
      normalizedText (lexemes text.toList) := by
  have h := congrArg (List.map Token.normalized) (map_unplaced_tokenize text)
  rw [List.map_map, List.map_map] at h
  rw [normalizedText_ofTokens]
  exact congrArg String.join h

theorem parseWith_normalized :
    (Query.parseWith grammar text).normalized = normalizedText (lexemes text.toList) :=
  tokenize_normalizedText text

theorem parseWith_binds :
    (Query.parseWith grammar text).binds = bindsOf (lexemes text.toList) := by
  have h := congrArg (List.filterMap Token.bind?) (map_unplaced_tokenize text)
  rw [List.filterMap_map, List.filterMap_map] at h
  exact (binds_ofTokens (Query.parseWith grammar text) (tokenize text).tokens).trans h

theorem tokenize_keywords :
    KeywordScan.summary (tokenize text).tokens =
      KeywordScan.summary ((lexemes text.toList).map Token.ofLexeme) := by
  rw [← map_unplaced_tokenize, KeywordScan.summary_unplaced]

variable {text}

theorem parseWith_summary (h : Wellformed (lexemes text.toList)) :
    (Query.parseWith grammar text).kind = (summaryOf grammar (lexemes text.toList)).kind ∧
      (Query.parseWith grammar text).tables =
        (summaryOf grammar (lexemes text.toList)).tables := by
  have herrors := (tokenize_errors_eq_nil_iff text).2 h
  simp [Query.parseWith, summaryOf, herrors, tokenize_normalizedText, tokenize_keywords]

theorem parseWith_errors_eq_nil_iff :
    (Query.parseWith grammar text).errors = [] ↔
      Wellformed (lexemes text.toList) ∧
        (summaryOf grammar (lexemes text.toList)).kind ≠ .unknown := by
  rw [← tokenize_errors_eq_nil_iff]
  by_cases herrors : (tokenize text).errors = []
  · simp [Query.parseWith, summaryOf, herrors, tokenize_normalizedText, tokenize_keywords]
  · simp [Query.parseWith, herrors]

end ParseWith

end DataAccess.Sql
