import DataAccess.Proofs.Sql.LexemeReading
import Mathlib.Data.List.Sort

/-!
What the keywords of a text introduce as tables: names that stand directly behind certain words, once
blanks, comments and opening parentheses are gone.
-/

set_option autoImplicit false

namespace DataAccess

theorem NameSet.ext_mem {s t : NameSet} (h : ∀ x, x ∈ s ↔ x ∈ t) : s = t := by
  obtain ⟨xs, hxs⟩ := s
  obtain ⟨ys, hys⟩ := t
  have : Std.Irrefl fun a b : String => a < b := ⟨fun a => String.lt_irrefl a⟩
  have : Std.Antisymm fun a b : String => a < b :=
    ⟨fun a b hab hba => absurd (String.lt_trans hab hba) (String.lt_irrefl a)⟩
  obtain rfl : xs = ys := hxs.eq_of_mem_iff hys h
  rfl

namespace Sql

/-- The tokens of a text but its blanks and comments, without their positions. -/
def content (tokens : List Token) : List Token :=
  (tokens.filter fun t => !t.isTrivia).map Token.unplaced

namespace KeywordScan

theorem significant_append (xs ys : List Token) :
    significant (xs ++ ys) = significant xs ++ significant ys := List.filter_append ..

theorem significant_cons_word {t : Token} (h : t.kind = .word) (ts : List Token) :
    significant (t :: ts) = t :: significant ts := by
  simp [significant, Token.isTrivia, h]

theorem significant_of_visible {ts : List Token}
    (h : ∀ t ∈ ts, t.isTrivia = false ∧ t.kind ≠ .lParen) : significant ts = ts :=
  List.filter_eq_self.2 fun t ht => by simp [h t ht]

theorem significant_filter (tokens : List Token) :
    significant (tokens.filter fun t => !t.isTrivia) = significant tokens := by
  rw [significant, significant, List.filter_filter]
  congr 1
  funext t
  cases t.isTrivia <;> simp

/-- The scan reads nothing but what is significant. -/
theorem summary_content (tokens : List Token) : summary (content tokens) = summary tokens := by
  rw [content, summary_unplaced, summary, significant_filter, summary]

/-- The names that a text puts where a table stands, as its keywords are read. -/
def tableNames (tokens : List Token) : List String := introduced (significant tokens)

theorem tableNames_unplaced (ts : List Token) :
    tableNames (ts.map Token.unplaced) = tableNames ts := by
  rw [tableNames, significant_unplaced, introduced_unplaced, tableNames]

/-- The keywords report the names that are introduced, but those that may be common tables. -/
theorem mem_summary_tables {tokens : List Token} {n : String} :
    n ∈ (KeywordScan.summary tokens).tables ↔
      n ∈ tableNames tokens ∧ Text.asciiLower n ∉ commonTables (significant tokens) := by
  have htables : (KeywordScan.summary tokens).tables = NameSet.ofList ((tableNames tokens).filter
      fun name => !(commonTables (significant tokens)).contains (Text.asciiLower name)) := rfl
  rw [htables, NameSet.mem_ofList, List.mem_filter]
  simp

theorem pairs_cons_cons {α : Type} (x y : α) (xs : List α) :
    pairs (x :: y :: xs) = (x, y) :: pairs (y :: xs) := rfl

theorem mem_pairs_iff {α : Type} {x y : α} {xs : List α} : (x, y) ∈ pairs xs ↔ [x, y] <:+: xs := by
  induction xs with
  | nil => simp [pairs]
  | cons a as ih =>
    cases as with
    | nil => simp [pairs, List.infix_cons_iff]
    | cons b bs =>
      rw [pairs_cons_cons, List.mem_cons, ih]
      conv => rhs; rw [List.infix_cons_iff]
      simp

theorem introduced_cons_cons (t u : Token) (ts : List Token) :
    introduced (t :: u :: ts) = (introduced? (t, u)).toList ++ introduced (u :: ts) := by
  rw [introduced, pairs_cons_cons, List.filterMap_cons]
  cases introduced? (t, u) <;> rfl

/-- The words behind which a table stands. -/
def introducers : List String := ["FROM", "JOIN", "UPDATE", "INTO"]

theorem introduced?_of_introducer {t : Token} (h : introducers.any t.isKeyword = true) (u : Token) :
    introduced? (t, u) =
      if u.kind = .word ∧ reserved.any (Text.sameWord · u.text) = true then none else u.ident? := by
  have h : ["FROM", "JOIN", "UPDATE", "INTO"].any t.isKeyword = true := h
  rw [introduced?, if_pos h]
  obtain ⟨kind, text, pos⟩ := u
  cases kind <;> simp [Token.ident?]

/-- A name stands directly behind a word that a table stands behind. -/
def IsIntroduced (tokens : List Token) (name : String) : Prop :=
  ∃ word t, [word, t] <:+: significant tokens ∧ introducers.any word.isKeyword = true ∧
    t.ident? = some name ∧ ¬(t.kind = .word ∧ reserved.any (Text.sameWord · t.text) = true)

theorem mem_tableNames {tokens : List Token} {name : String} :
    name ∈ tableNames tokens ↔ IsIntroduced tokens name := by
  rw [tableNames, introduced, List.mem_filterMap]
  constructor
  · rintro ⟨⟨word, t⟩, hpair, hname⟩
    have hword : introducers.any word.isKeyword = true := by
      by_contra hinert
      have hnone : introduced? (word, t) = none := if_neg hinert
      exact absurd hname (by simp [hnone])
    rw [introduced?_of_introducer hword] at hname
    obtain ⟨hfree, hident⟩ := Option.ite_none_left_eq_some.1 hname
    exact ⟨word, t, mem_pairs_iff.1 hpair, hword, hident, hfree⟩
  · rintro ⟨word, t, hpair, hword, hident, hfree⟩
    refine ⟨(word, t), mem_pairs_iff.2 hpair, ?_⟩
    rw [introduced?_of_introducer hword, if_neg hfree, hident]

/-- A token behind which a common table may be declared. -/
def IsSeparator (t : Token) : Prop :=
  t.isKeyword "WITH" = true ∨ t.isKeyword "RECURSIVE" = true ∨ t.text = ","

/-- In a statement that starts with `WITH`, a name in any ASCII case stands where such a list may
declare it. -/
def MayBeCommon (tokens : List Token) (name : String) : Prop :=
  startsWithCommonTable (significant tokens) = true ∧
    ∃ separator t other, [separator, t] <:+: significant tokens ∧ IsSeparator separator ∧
      t.ident? = some other ∧ Text.asciiLower other = Text.asciiLower name

theorem mem_commonTables {tokens : List Token} {name : String} :
    Text.asciiLower name ∈ commonTables (significant tokens) ↔ MayBeCommon tokens name := by
  rw [commonTables, MayBeCommon]
  split
  · rename_i hstart
    rw [List.mem_filterMap, and_iff_right hstart]
    constructor
    · rintro ⟨⟨separator, t⟩, hpair, hname⟩
      obtain ⟨hseparator, hname⟩ := Option.ite_none_right_eq_some.1 hname
      obtain ⟨other, hident, hlower⟩ := Option.map_eq_some_iff.1 hname
      refine ⟨separator, t, other, mem_pairs_iff.1 hpair, ?_, hident, hlower⟩
      simpa [IsSeparator, or_assoc] using hseparator
    · rintro ⟨separator, t, other, hpair, hseparator, hident, hlower⟩
      refine ⟨(separator, t), mem_pairs_iff.2 hpair, ?_⟩
      have hseparator : (separator.isKeyword "WITH" || separator.isKeyword "RECURSIVE" ||
          decide (separator.text = ",")) = true := by simpa [IsSeparator, or_assoc] using hseparator
      simp only [hseparator, ↓reduceIte, hident, Option.map_some, hlower]
  · rename_i hstart
    simp [hstart]

/-- A token after which no table stands. -/
def IsInert (t : Token) : Prop := introducers.any t.isKeyword = false

instance (t : Token) : Decidable (IsInert t) :=
  inferInstanceAs (Decidable (introducers.any t.isKeyword = false))

theorem introduced_cons_of_isInert {t : Token} {ts : List Token} (h : IsInert t) :
    introduced (t :: ts) = introduced ts := by
  cases ts with
  | nil => rfl
  | cons u ts =>
    have hpair : introduced? (t, u) = none := by
      have h : ["FROM", "JOIN", "UPDATE", "INTO"].any t.isKeyword = false := h
      rw [introduced?, if_neg (by rw [h]; simp)]
    rw [introduced_cons_cons, hpair]
    rfl

theorem introduced_append_of_isInert {ts us : List Token} (h : ∀ t ∈ ts, IsInert t) :
    introduced (ts ++ us) = introduced us := by
  induction ts with
  | nil => rfl
  | cons t ts ih =>
    rw [List.cons_append, introduced_cons_of_isInert (h t (by simp))]
    exact ih fun u hu => h u (by simp [hu])

/-- A token that is no name ends the tables of a text. -/
theorem introduced_concat {ts : List Token} {u : Token} (h : u.ident? = none) :
    introduced (ts ++ [u]) = introduced ts := by
  induction ts with
  | nil => rfl
  | cons t ts ih =>
    cases ts with
    | nil =>
      have hpair : introduced? (t, u) = none := by
        simp [introduced?, h]
      simp [introduced, pairs, hpair]
    | cons v ts =>
      rw [List.cons_append, List.cons_append, introduced_cons_cons, introduced_cons_cons,
        ← List.cons_append, ih]

end KeywordScan

end Sql

end DataAccess
