import DataAccess.Proofs.Sql.Clauses
import Mathlib

/-!
The kind of a statement with common tables, as the keywords give it. It is that of the first word
anywhere behind `WITH` that can start a write, be it a verb, the name of a function or a column, so it is
the kind of the statement's main verb exactly when no such word of another kind comes in between.
-/

set_option autoImplicit false

namespace DataAccess

theorem Text.asciiUpper_of_sameWord {a b : String} (h : sameWord a b = true) :
    asciiUpper a = asciiUpper b := by
  have hchars : a.toList.map Char.toLower = b.toList.map Char.toLower := by
    simpa [sameWord] using h
  have hupper := congrArg (List.map Char.toUpper) hchars
  have hstep : Char.toUpper ∘ Char.toLower = Char.toUpper :=
    funext Char.toUpper_toLower_eq_toUpper
  rw [List.map_map, List.map_map, hstep] at hupper
  rw [asciiUpper, hupper, asciiUpper]

namespace Sql

theorem StatementKind.ofKeyword_of_sameWord {word k : String} (h : Text.sameWord word k = true) :
    ofKeyword word = ofKeyword k := by
  unfold ofKeyword
  rw [Text.asciiUpper_of_sameWord h]

namespace Token

/-- The words that say what a statement does. -/
def verbs : List String := ["SELECT", "VALUES", "INSERT", "REPLACE", "UPDATE", "DELETE"]

def isVerb (t : Token) : Bool := verbs.any t.isKeyword

/-- The kind of statement that the text of a token starts. -/
def startedKind (t : Token) : StatementKind := StatementKind.ofKeyword t.text

theorem startedKind_of_isKeyword {t : Token} {k : String} (h : t.isKeyword k = true) :
    t.startedKind = StatementKind.ofKeyword k := by
  simp only [isKeyword, Bool.and_eq_true, decide_eq_true_eq] at h
  exact StatementKind.ofKeyword_of_sameWord h.2

theorem kind_of_isVerb {t : Token} (h : t.isVerb = true) : t.kind = .word := by
  obtain ⟨k, -, hk⟩ := List.any_eq_true.1 h
  simp only [isKeyword, Bool.and_eq_true, decide_eq_true_eq] at hk
  exact hk.1

/-- A verb reads or writes. -/
theorem startedKind_of_isVerb {t : Token} (h : t.isVerb = true) :
    t.startedKind = .select ∨ t.startedKind.isWrite = true := by
  obtain ⟨k, hk, hword⟩ := List.any_eq_true.1 h
  have hall : ∀ k ∈ verbs, StatementKind.ofKeyword k = .select ∨
      (StatementKind.ofKeyword k).isWrite = true := by decide
  rw [startedKind_of_isKeyword hword]
  exact hall k hk

end Token

namespace Clause

/-- A verb outside all parentheses. -/
def isOuterVerb (x : Token × Nat) : Bool := x.2 = 0 && x.1.isVerb

/-- The first verb outside all parentheses. -/
def mainVerb? (c : Clause) : Option Token := ((c.leveled 0).find? isOuterVerb).map Prod.fst

/-- The tokens before the main verb. -/
def beforeVerb (c : Clause) : List Token :=
  ((c.leveled 0).takeWhile (!isOuterVerb ·)).map Prod.fst

def behindVerb (c : Clause) : List Token :=
  ((c.leveled 0).dropWhile (!isOuterVerb ·)).tail.map Prod.fst

theorem tokens_of_mainVerb {c : Clause} {verb : Token} (h : c.mainVerb? = some verb) :
    c.tokens = c.beforeVerb ++ verb :: c.behindVerb ∧ verb.isVerb = true := by
  obtain ⟨x, hx, rfl⟩ := Option.map_eq_some_iff.1 h
  have hverb : isOuterVerb x = true := List.find?_some hx
  rw [List.find?_eq_head?_dropWhile_not] at hx
  obtain ⟨behind, hbehind⟩ := List.head?_eq_some_iff.1 hx
  have hsplit : c.leveled 0 = (c.leveled 0).takeWhile (!isOuterVerb ·) ++ x :: behind := by
    rw [← hbehind, List.takeWhile_append_dropWhile]
  refine ⟨?_, (Bool.and_eq_true_iff.1 hverb).2⟩
  rw [tokens, beforeVerb, behindVerb, hbehind]
  conv => enter [1, 2]; rw [hsplit]
  simp

end Clause

namespace KeywordScan

/-- The kind of the first token whose text can start a write. -/
def firstWrite? (tokens : List Token) : Option StatementKind :=
  (tokens.map Token.startedKind).find? StatementKind.isWrite

theorem firstWrite?_append (xs ys : List Token) :
    firstWrite? (xs ++ ys) = (firstWrite? xs).or (firstWrite? ys) := by
  rw [firstWrite?, List.map_append, List.find?_append]
  rfl

theorem firstWrite?_cons_of_not {t : Token} (h : t.startedKind.isWrite = false) (ts : List Token) :
    firstWrite? (t :: ts) = firstWrite? ts := by
  simp [firstWrite?, h]

theorem isWrite_of_firstWrite? {tokens : List Token} {k : StatementKind}
    (h : firstWrite? tokens = some k) : k.isWrite = true := List.find?_some h

theorem kind_of_startsWithCommonTable {tokens : List Token}
    (h : startsWithCommonTable tokens = true) :
    KeywordScan.kind tokens = (firstWrite? tokens).getD .select := by
  obtain ⟨t, ts, rfl⟩ : ∃ t ts, tokens = t :: ts := by
    cases tokens with
    | nil => exact absurd h nofun
    | cons t ts => exact ⟨t, ts, rfl⟩
  have hkind : t.kind = .word := by
    have hword : t.isKeyword "WITH" = true := h
    simp only [Token.isKeyword, Bool.and_eq_true, decide_eq_true_eq] at hword
    exact hword.1
  have hselect : StatementKind.ofKeyword t.text = .select := Token.startedKind_of_isKeyword h
  have hfind : (t :: ts).find? (·.kind = .word) = some t := by simp [hkind]
  rw [KeywordScan.kind, hfind]
  simp only [hselect, h, decide_true, Bool.and_self, ↓reduceIte]
  rfl

/-- Where a verb stands among other tokens, the first write has its kind exactly when the writes before
it have, and a verb that reads has no writes behind it either. -/
theorem firstWrite?_verb_iff {verb : Token} (hverb : verb.isVerb = true) (early late : List Token) :
    (firstWrite? (early ++ verb :: late)).getD .select = verb.startedKind ↔
      (∀ k, firstWrite? early = some k → k = verb.startedKind) ∧
        (verb.startedKind = .select → firstWrite? late = none) := by
  have hne : ∀ {tokens k}, firstWrite? tokens = some k → k ≠ .select := by
    rintro tokens k hk rfl
    exact absurd (isWrite_of_firstWrite? hk) nofun
  rw [firstWrite?_append]
  -- a verb that reads is passed over by the search, one that writes ends it
  rcases Token.startedKind_of_isVerb hverb with hread | hwrite
  · have hskip : verb.startedKind.isWrite = false := by rw [hread]; rfl
    rw [firstWrite?_cons_of_not hskip, hread]
    cases hearly : firstWrite? early with
    | some k => simp [hne hearly]
    | none =>
      cases hlate : firstWrite? late with
      | some k => simp [hne hlate]
      | none => simp
  · have hfirst : firstWrite? (verb :: late) = some verb.startedKind := by simp [firstWrite?, hwrite]
    have hselect : verb.startedKind ≠ .select := hne hfirst
    rw [hfirst]
    cases hearly : firstWrite? early <;> simp [hselect]

variable (word : Keyword "WITH") (recursive : Option (Keyword "RECURSIVE")) (list : CommonTables)
  (main : Clause)

theorem firstWrite?_withList :
    firstWrite? (significant (Clause.withList word recursive list main).tokens) =
      firstWrite? (significant (list.tokens ++ main.tokens)) := by
  have hword : word.token.startedKind.isWrite = false := by
    rw [Token.startedKind_of_isKeyword word.isKeyword_token]
    rfl
  rw [significant_withList, firstWrite?_cons_of_not hword, firstWrite?_append]
  cases recursive with
  | none => rfl
  | some r =>
    have hr : r.token.startedKind.isWrite = false := by
      rw [Token.startedKind_of_isKeyword r.isKeyword_token]
      rfl
    simp [firstWrite?, hr]

/-- A statement with common tables gets the kind of its main verb exactly when each first word that can
start a write is of that kind: those of the list and before the verb in any case, and those behind the
verb if it reads. -/
theorem kind_eq_mainVerb_iff {tokens : List Token}
    (htokens : content tokens = (Clause.withList word recursive list main).tokens) {verb : Token}
    (hverb : main.mainVerb? = some verb) :
    (summary tokens).kind = verb.startedKind ↔
      (∀ k, firstWrite? (significant (list.tokens ++ main.beforeVerb)) = some k →
        k = verb.startedKind) ∧
      (verb.startedKind = .select → firstWrite? (significant main.behindVerb) = none) := by
  obtain ⟨hmain, hverb⟩ := Clause.tokens_of_mainVerb hverb
  have hsplit : significant (list.tokens ++ main.tokens) =
      significant (list.tokens ++ main.beforeVerb) ++ verb :: significant main.behindVerb := by
    rw [hmain, ← List.append_assoc, significant_append,
      significant_cons_word (Token.kind_of_isVerb hverb)]
  have hstart : startsWithCommonTable
      (significant (Clause.withList word recursive list main).tokens) = true := by
    rw [significant_withList]
    exact word.isKeyword_token
  rw [← summary_content, htokens, summary, kind_of_startsWithCommonTable hstart,
    firstWrite?_withList, hsplit]
  exact firstWrite?_verb_iff hverb _ _

/-- One common table, whose body calls the function `replace`. -/
def trimmedNames : CommonTables :=
  .last (.plain "t") (.token (.word "AS") .done)
    (.token (.word "SELECT") (.token (.word "replace") (.group (.token (.word "name") .done)
      (.token (.word "FROM") (.table ⟨.plain "user", []⟩ .done)))))

def selectAll : Clause :=
  .token (.word "SELECT") (.token (.word "id") (.token (.word "FROM")
    (.table ⟨.plain "t", []⟩ .done)))

/-- The name of the function passes for the verb. -/
theorem kind_eq_mainVerb_replace :
    let tokens := (tokenize "WITH t AS (SELECT replace(name) FROM user) SELECT id FROM t").tokens
    content tokens = (Clause.withList ⟨"WITH", rfl⟩ none trimmedNames selectAll).tokens ∧
      selectAll.mainVerb? = some (.word "SELECT") ∧
      (summary tokens).kind = .insert ∧
      (summary tokens).kind ≠ (Token.word "SELECT").startedKind := by
  intro tokens
  have htokens : content tokens =
      (Clause.withList ⟨"WITH", rfl⟩ none trimmedNames selectAll).tokens := by decide +kernel
  have hverb : selectAll.mainVerb? = some (.word "SELECT") := by decide +kernel
  refine ⟨htokens, hverb, by decide +kernel, fun hkind => ?_⟩
  have hwrites := (kind_eq_mainVerb_iff _ _ _ _ htokens hverb).1 hkind
  exact absurd (hwrites.1 .insert (by decide +kernel)) (by decide +kernel)

end KeywordScan

end Sql

end DataAccess
