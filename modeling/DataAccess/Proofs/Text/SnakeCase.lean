import DataAccess.Text.Words
import Mathlib.Data.List.Nodup

/-!
What the snake case of a name keeps of it: its words. Two names have one snake case if and only if
they have the same words; which characters stood between the words, and whether a word began with a
capital, is lost. Nothing is lost of a name in camel case.
-/

set_option autoImplicit false

namespace DataAccess.Text

/-- The words of a text behind a word that has begun. A capital begins a new word unless the word is
still empty, and every character that is neither a letter nor a digit ends one. -/
def wordsFrom (word : List Char) : List Char → List (List Char)
  | [] => [word]
  | c :: rest =>
    if isUppercase c then
      if word = [] then wordsFrom (lowercase c) rest else word :: wordsFrom (lowercase c) rest
    else if isAlphanumeric c then wordsFrom (word ++ [c]) rest
    else word :: wordsFrom [] rest

/-- The words of a name, in lower case. -/
def words (name : String) : List (List Char) := wordsFrom [] name.toList

theorem wordsFrom_ne_nil (word rest : List Char) : wordsFrom word rest ≠ [] := by
  fun_induction wordsFrom word rest <;> simp_all

/-! No word holds the character that joins them. -/

/-- A capital in ASCII has a letter as its lower case, and is the upper case of it. -/
theorem toLower_of_isUpper {c : Char} (hc : c.val < 128) (hupper : c.isUpper = true) :
    c.toLower ≠ '_' ∧ c.toLower.toUpper = c := by
  have hascii : ∀ n < 128, (Char.ofNat n).isUpper = true →
      (Char.ofNat n).toLower ≠ '_' ∧ (Char.ofNat n).toLower.toUpper = Char.ofNat n := by decide
  have hchar := hascii c.toNat hc
  rw [Char.ofNat_toNat] at hchar
  exact hchar hupper

theorem ofNat_ne_underscore {n : Nat} (h : 95 < n) : Char.ofNat n ≠ '_' := by
  by_cases hvalid : n.isValidChar
  · have hchar : Char.ofNat n = Char.ofNatAux n hvalid := dif_pos hvalid
    intro heq
    have hcode : n = 95 := congrArg Char.toNat (hchar.symm.trans heq)
    omega
  · have hchar : Char.ofNat n = '\x00' := dif_neg hvalid
    rw [hchar]
    decide

theorem underscore_not_mem_lowercase {c : Char} (h : isUppercase c = true) :
    '_' ∉ lowercase c := by
  unfold lowercase
  split
  · rename_i hascii
    rw [isUppercase, if_pos hascii] at h
    exact fun hmem => (toLower_of_isUpper hascii h).1 (List.mem_singleton.1 hmem).symm
  · rename_i hascii
    split
    · decide
    · extract_lets found
      cases hfound : found with
      | none =>
        intro hmem
        obtain rfl := List.mem_singleton.1 hmem
        exact hascii (by decide)
      | some entry =>
        obtain ⟨first, last, step, target⟩ := entry
        have htable : ∀ entry ∈ CharTable.lowercase, 95 < entry.2.2.2 := by decide +kernel
        have htarget : 95 < target := htable _ (List.mem_of_find?_eq_some hfound)
        intro hmem
        exact ofNat_ne_underscore (by omega) (List.mem_singleton.1 hmem).symm

theorem lowercase_ne_nil (c : Char) : lowercase c ≠ [] := by
  unfold lowercase
  split
  · exact List.cons_ne_nil _ _
  · split
    · exact List.cons_ne_nil _ _
    · extract_lets found
      cases found <;> exact List.cons_ne_nil _ _

theorem underscore_not_mem_of_mem_wordsFrom {word rest w : List Char} (hword : '_' ∉ word)
    (hw : w ∈ wordsFrom word rest) : '_' ∉ w := by
  fun_induction wordsFrom word rest with
  | case1 word => rwa [List.mem_singleton.1 hw]
  | case2 c rest hupper ih => exact ih (underscore_not_mem_lowercase hupper) hw
  | case3 word c rest hupper _ ih =>
    rcases List.mem_cons.1 hw with rfl | hw
    · exact hword
    · exact ih (underscore_not_mem_lowercase hupper) hw
  | case4 word c rest _ halnum ih =>
    refine ih (fun hmem => ?_) hw
    rcases List.mem_append.1 hmem with hmem | hmem
    · exact hword hmem
    · obtain rfl := List.mem_singleton.1 hmem
      exact absurd halnum (by decide)
  | case5 word c rest _ _ ih =>
    rcases List.mem_cons.1 hw with rfl | hw
    · exact hword
    · exact ih List.not_mem_nil hw

/-! The snake case of a name. -/

/-- A new word starts at the start of the text and behind an underscore, that is, where the word so
far is still empty. -/
theorem starts_word_iff {lead word : List Char} (hword : '_' ∉ word)
    (hlead : lead = [] ∨ lead.head? = some '_') :
    (word.reverse ++ lead).isEmpty || (word.reverse ++ lead).head? = some '_' ↔ word = [] := by
  cases hlast : word.reverse with
  | nil =>
    have hnil : word = [] := List.reverse_eq_nil_iff.1 hlast
    cases hlead <;> simp_all
  | cons d _ =>
    have hd : d ∈ word := List.mem_reverse.1 (hlast ▸ List.mem_cons_self)
    have hne : d ≠ '_' := fun heq => hword (heq ▸ hd)
    have hsome : word ≠ [] := List.ne_nil_of_mem hd
    simp [hne, hsome]

/-- What is written backwards are the words. In front of the word that has begun there is nothing, or
the end of another word. -/
theorem reverse_snakeOnto {lead word : List Char} (rest : List Char) (hword : '_' ∉ word)
    (hlead : lead = [] ∨ lead.head? = some '_') :
    (snakeOnto (word.reverse ++ lead) rest).reverse =
      lead.reverse ++ ['_'].intercalate (wordsFrom word rest) := by
  induction rest generalizing lead word with
  | nil => simp [snakeOnto, wordsFrom, List.intercalate]
  | cons c rest ih =>
    -- The next word is behind the underscore that ends this one.
    have hnext : ∀ next, '_' ∉ next →
        (snakeOnto (next.reverse ++ '_' :: (word.reverse ++ lead)) rest).reverse =
          lead.reverse ++ ['_'].intercalate (word :: wordsFrom next rest) := fun next hnext => by
      rw [ih hnext (.inr rfl), List.intercalate_cons_of_ne_nil (wordsFrom_ne_nil _ _)]
      simp
    have hbegin := starts_word_iff hword hlead
    rw [snakeOnto, wordsFrom]
    split
    · rename_i hupper
      have hlower := underscore_not_mem_lowercase hupper
      by_cases hnil : word = []
      · rw [if_pos (hbegin.2 hnil), if_pos hnil, hnil]
        exact ih hlower hlead
      · rw [if_neg (fun h => hnil (hbegin.1 h)), if_neg hnil]
        exact hnext _ hlower
    · split
      · rename_i halnum
        have hchar : '_' ∉ word ++ [c] := by
          rw [List.mem_append, not_or]
          refine ⟨hword, fun hmem => ?_⟩
          obtain rfl := List.mem_singleton.1 hmem
          exact absurd halnum (by decide)
        have hrest := ih hchar hlead
        rwa [List.reverse_append] at hrest
      · exact hnext [] List.not_mem_nil

theorem toList_snakeCase (name : String) :
    (snakeCase name).toList = ['_'].intercalate (words name) := by
  have h : (snakeOnto (([] : List Char).reverse ++ []) name.toList).reverse = _ :=
    reverse_snakeOnto name.toList List.not_mem_nil (.inl rfl)
  rw [snakeCase, String.toList_ofList]
  exact h

/-- Two names have one snake case if and only if they have the same words. -/
theorem snakeCase_eq_iff {a b : String} : snakeCase a = snakeCase b ↔ words a = words b := by
  have hsplit : ∀ name, (['_'].intercalate (words name)).splitOn '_' = words name := fun name =>
    List.splitOn_intercalate '_'
      (fun w hw => underscore_not_mem_of_mem_wordsFrom List.not_mem_nil hw) (wordsFrom_ne_nil _ _)
  rw [← String.toList_inj, toList_snakeCase, toList_snakeCase]
  constructor
  · intro h
    rw [← hsplit a, ← hsplit b, h]
  · exact fun h => congrArg _ h

/-! Names in camel case. -/

/-- A capital and then letters and digits, all of them in ASCII. -/
def IsCamelCase (name : String) : Prop :=
  name.toList.head?.any Char.isUpper = true ∧ ∀ c ∈ name.toList, c.val < 128 ∧ c.isAlphanum = true

/-- A word with its first letter as a capital. -/
def capitalized : List Char → List Char
  | [] => []
  | c :: rest => c.toUpper :: rest

theorem capitalized_concat {word : List Char} (h : word ≠ []) (c : Char) :
    capitalized (word ++ [c]) = capitalized word ++ [c] := by
  obtain ⟨d, ds, rfl⟩ := List.exists_cons_of_ne_nil h
  rfl

theorem lowercase_of_isUpper {c : Char} (hc : c.val < 128) (hupper : c.isUpper = true) :
    capitalized (lowercase c) = [c] ∧ isUppercase c = true := by
  rw [lowercase, if_pos hc, isUppercase, if_pos hc]
  exact ⟨congrArg ([·]) (toLower_of_isUpper hc hupper).2, hupper⟩

/-- Capitalized and put together, the words give the text back. -/
theorem flatMap_capitalized_wordsFrom {word rest : List Char} (hword : word ≠ [])
    (hrest : ∀ c ∈ rest, c.val < 128 ∧ c.isAlphanum = true) :
    (wordsFrom word rest).flatMap capitalized = capitalized word ++ rest := by
  induction rest generalizing word with
  | nil => simp [wordsFrom]
  | cons c rest ih =>
    obtain ⟨⟨hc, halnum⟩, hrest⟩ := List.forall_mem_cons.1 hrest
    rw [wordsFrom]
    split
    · rename_i hupper
      rw [isUppercase, if_pos hc] at hupper
      rw [List.flatMap_cons, ih (lowercase_ne_nil c) hrest,
        (lowercase_of_isUpper hc hupper).1]
      rfl
    · have hpart : isAlphanumeric c = true := by
        rwa [isAlphanumeric, isAlphabetic, isNumeric, if_pos hc, if_pos hc]
      rw [if_pos hpart, ih (List.append_ne_nil_of_left_ne_nil hword _) hrest,
        capitalized_concat hword, List.append_assoc]
      rfl

theorem IsCamelCase.flatMap_capitalized_words {name : String} (h : IsCamelCase name) :
    (words name).flatMap capitalized = name.toList := by
  obtain ⟨hfirst, hall⟩ := h
  rw [words]
  cases hchars : name.toList with
  | nil => simp [hchars] at hfirst
  | cons c rest =>
    rw [hchars] at hfirst hall
    obtain ⟨⟨hc, -⟩, hrest⟩ := List.forall_mem_cons.1 hall
    obtain ⟨hlower, hupper⟩ := lowercase_of_isUpper hc hfirst
    rw [wordsFrom, if_pos hupper, if_pos rfl,
      flatMap_capitalized_wordsFrom (lowercase_ne_nil c) hrest, hlower]
    rfl

/-- Different names in camel case have different words. -/
theorem IsCamelCase.words_inj {a b : String} (ha : IsCamelCase a) (hb : IsCamelCase b)
    (h : words a = words b) : a = b := by
  rw [← String.toList_inj, ← ha.flatMap_capitalized_words, h, hb.flatMap_capitalized_words]

theorem nodup_words_of_isCamelCase {names : List String} (hcamel : ∀ name ∈ names, IsCamelCase name)
    (h : names.Nodup) : (names.map words).Nodup :=
  h.map_on fun a ha b hb hwords => (hcamel a ha).words_inj (hcamel b hb) hwords

end DataAccess.Text
