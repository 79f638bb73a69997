import DataAccess.Proofs.Sql.LexemeJoints

/-!
Texts that are put together from pieces, some of them names between backticks. Where the pieces join
well, every name reads as one token that denotes it exactly when no name contains a backtick: inside
of a quoted name a backtick is read as its end, or as half of a doubled one.
-/

set_option autoImplicit false

namespace DataAccess.Sql

/-- Behind the text `front`, the name stands between backticks as a single token that denotes it. -/
def Denotes (sql front name : String) : Prop :=
  ∃ before t after, (tokenize sql).tokens = before ++ t :: after ∧
    textOf before = front.toList ∧ t.kind = .quotedIdent name ∧ t.text = Text.quoteName name

theorem denotes_iff_lexemes {sql front name : String} :
    Denotes sql front name ↔
      ∃ xs x ys, lexemes sql.toList = xs ++ x :: ys ∧ xs.flatMap Lexeme.text = front.toList ∧
        x.kind = .quotedIdent name ∧ x.text = (Text.quoteName name).toList := by
  have htokens : (tokenize sql).tokens = tokensFrom {} (lexemes sql.toList) := rfl
  constructor
  · rintro ⟨before, t, after, hsplit, hfront, hkind, htext⟩
    have hmap := map_unplaced_tokenize sql
    rw [hsplit, List.map_append, List.map_cons, eq_comm, List.map_eq_append_iff] at hmap
    obtain ⟨xs, zs, hlexemes, hxs, hzs⟩ := hmap
    obtain ⟨x, ys, rfl, hx, -⟩ := List.map_eq_cons_iff.1 hzs
    have hkind' := congrArg Token.kind hx
    have htext' := congrArg (·.text.toList) hx
    refine ⟨xs, x, ys, hlexemes, ?_, hkind'.trans hkind, ?_⟩
    · have hflat := congrArg textOf hxs
      simp only [textOf, List.flatMap_map, Token.ofLexeme, Token.unplaced, String.toList_ofList]
        at hflat
      exact hflat.trans hfront
    · simpa [Token.ofLexeme, Token.unplaced, htext] using htext'
  · rintro ⟨xs, x, ys, hlexemes, hfront, hkind, htext⟩
    rw [hlexemes, tokensFrom_append, tokensFrom_cons] at htokens
    refine ⟨_, _, _, htokens, ?_, hkind, ?_⟩
    · rw [textOf_tokensFrom, hfront]
    · simp [Token.ofPlaced, htext]

theorem text_ne_nil_of_mem_lexemes {cs : List Char} : ∀ x ∈ lexemes cs, x.text ≠ [] := by
  fun_induction lexemes cs with
  | case1 => simp
  | case2 c cs ih =>
    intro x hx
    rcases List.mem_cons.1 hx with rfl | hx
    · exact lexeme_text_ne_nil c cs
    · exact ih x hx

/-- Where a text is cut between lexemes decides which lexemes are in front of the cut. -/
theorem eq_of_flatMap_text {xs ys as bs : List Lexeme} (h : xs ++ as = ys ++ bs)
    (hne : ∀ x ∈ xs ++ as, x.text ≠ []) (htext : xs.flatMap Lexeme.text = ys.flatMap Lexeme.text) :
    xs = ys := by
  have hnil : ∀ zs : List Lexeme, (∀ z ∈ zs, z.text ≠ []) → zs.flatMap Lexeme.text = [] → zs = [] := by
    intro zs hzs hflat
    cases zs with
    | nil => rfl
    | cons z zs =>
      rw [List.flatMap_cons, List.append_eq_nil_iff] at hflat
      exact absurd hflat.1 (hzs z List.mem_cons_self)
  rcases List.append_eq_append_iff.1 h with ⟨zs, rfl, rfl⟩ | ⟨zs, rfl, rfl⟩
  · rw [List.flatMap_append, List.self_eq_append_right] at htext
    rw [hnil zs (fun z hz => hne z (by simp [hz])) htext, List.append_nil]
  · rw [List.flatMap_append, List.append_right_eq_self] at htext
    rw [hnil zs (fun z hz => hne z (by simp [hz])) htext, List.append_nil]

/-- Each quote in what a closed run denotes is doubled in its text. -/
theorem length_quotedRun {quote : Char} {cs : List Char} (h : (quotedRun quote cs).closed = true) :
    (quotedRun quote cs).text.length =
      (quotedRun quote cs).value.length + (quotedRun quote cs).value.count quote + 1 := by
  fun_induction quotedRun quote cs with
  | case1 => simp at h
  | case2 => simp
  | case3 c hc => simp at h
  | case4 rest ih =>
    have hrest := ih h
    simp only [Run.before, List.cons_append, List.nil_append, List.length_cons,
      List.count_cons_self] at hrest ⊢
    omega
  | case5 => simp
  | case6 c d rest hc ih =>
    have hrest := ih h
    simp only [Run.before, List.cons_append, List.nil_append, List.length_cons,
      List.count_cons_of_ne hc] at hrest ⊢
    omega

theorem lexeme_quote (cs : List Char) :
    lexeme '`' cs = (⟨.quotedIdent (String.ofList (quotedRun '`' cs).value),
      '`' :: (quotedRun '`' cs).text,
      if (quotedRun '`' cs).closed then none else some .unterminatedIdent⟩,
      (quotedRun '`' cs).rest) := by
  unfold lexeme
  rw [if_neg (by decide), if_neg (by decide), if_neg (by simp), if_neg (by simp),
    if_neg (by decide), if_pos (.inr rfl)]

/-- A name that reads as itself, with more text behind it, contains no backtick. -/
theorem not_mem_of_lexeme_quote {name : String} {rest : List Char} (hrest : rest ≠ [])
    (hkind : (lexeme '`' (name.toList ++ '`' :: rest)).1.kind = .quotedIdent name)
    (htext : (lexeme '`' (name.toList ++ '`' :: rest)).1.text = (Text.quoteName name).toList) :
    '`' ∉ name.toList := by
  rw [lexeme_quote] at hkind htext
  have hvalue : (quotedRun '`' (name.toList ++ '`' :: rest)).value = name.toList := by
    simpa using congrArg String.toList (TokenKind.quotedIdent.inj hkind)
  have htext : (quotedRun '`' (name.toList ++ '`' :: rest)).text = name.toList ++ ['`'] := by
    rw [Rows.toList_quoteName] at htext
    exact (List.cons.inj htext).2
  have hclosed : (quotedRun '`' (name.toList ++ '`' :: rest)).closed = true := by
    refine eq_true_of_ne_false fun hopen => hrest ?_
    have happ := quotedRun_append '`' (name.toList ++ '`' :: rest)
    rw [htext, (quotedRun_of_open hopen).1] at happ
    simpa using happ.symm
  have hlength := length_quotedRun hclosed
  rw [htext, hvalue, List.length_append, List.length_singleton] at hlength
  exact List.count_eq_zero.1 (by omega)

/-- A part of a text: text as it is, or a name in backticks. -/
inductive SqlPiece where
  | text (s : String)
  | name (n : String)

namespace SqlPiece

def sql : SqlPiece → String
  | text s => s
  | name n => Text.quoteName n

def name? : SqlPiece → Option String
  | text _ => none
  | name n => some n

end SqlPiece

def assemble : List SqlPiece → String
  | [] => ""
  | p :: rest => p.sql ++ assemble rest

def namesOf (pieces : List SqlPiece) : List String := pieces.filterMap SqlPiece.name?

/-- Parts with a separator between each two of them. -/
def separated (separator : String) : List (List SqlPiece) → List SqlPiece
  | [] => []
  | [part] => part
  | part :: next :: rest => part ++ .text separator :: separated separator (next :: rest)

@[simp] theorem assemble_nil : assemble [] = "" := rfl

@[simp] theorem assemble_text (s : String) (ps : List SqlPiece) :
    assemble (.text s :: ps) = s ++ assemble ps := rfl

@[simp] theorem assemble_name (n : String) (ps : List SqlPiece) :
    assemble (.name n :: ps) = Text.quoteName n ++ assemble ps := rfl

@[simp] theorem namesOf_nil : namesOf [] = [] := rfl

@[simp] theorem namesOf_text (s : String) (ps : List SqlPiece) :
    namesOf (.text s :: ps) = namesOf ps := rfl

@[simp] theorem namesOf_name (n : String) (ps : List SqlPiece) :
    namesOf (.name n :: ps) = n :: namesOf ps := rfl

@[simp] theorem assemble_append (ps qs : List SqlPiece) : assemble (ps ++ qs) = assemble ps ++ assemble qs := by
  induction ps with
  | nil => exact (String.empty_append).symm
  | cons p ps ih => rw [List.cons_append, assemble, assemble, ih, String.append_assoc]

@[simp] theorem assemble_separated (separator : String) (parts : List (List SqlPiece)) :
    assemble (separated separator parts) = separator.intercalate (parts.map assemble) := by
  fun_induction separated separator parts with
  | case1 => rfl
  | case2 part => simp
  | case3 part next rest ih =>
    have hcons : separator.intercalate ((part :: next :: rest).map assemble) =
        assemble part ++ separator ++ separator.intercalate ((next :: rest).map assemble) :=
      String.intercalate_cons_cons
    rw [assemble_append, assemble, ih, hcons, String.append_assoc]
    rfl

@[simp] theorem namesOf_append (ps qs : List SqlPiece) : namesOf (ps ++ qs) = namesOf ps ++ namesOf qs :=
  List.filterMap_append

@[simp] theorem namesOf_separated (separator : String) (parts : List (List SqlPiece)) :
    namesOf (separated separator parts) = parts.flatMap namesOf := by
  fun_induction separated separator parts with
  | case1 => rfl
  | case2 part => simp
  | case3 part next rest ih =>
    rw [namesOf_append, List.flatMap_cons, ← ih]
    rfl

/-- Pieces that join: each starts with a character that may stand behind the one before it. The
predicates tell what may come first, and what may come behind all of them. -/
inductive Spells : (Char → Prop) → List SqlPiece → (Char → Prop) → Prop
  | nil {first : Char → Prop} : Spells first [] first
  | text {first next last : Char → Prop} {s : String} {c : Char} {ps : List SqlPiece}
    (head : s.toList.head? = some c) (start : first c) (joins : Joins next s.toList)
    (rest : Spells next ps last) : Spells first (.text s :: ps) last
  | name {first last : Char → Prop} {n : String} {ps : List SqlPiece} (start : first '`')
    (rest : Spells (· ≠ '`') ps last) : Spells first (.name n :: ps) last

namespace Spells

variable {first next last : Char → Prop} {ps qs : List SqlPiece}

theorem append (h : Spells first ps next) (h' : Spells next qs last) :
    Spells first (ps ++ qs) last := by
  induction h with
  | nil => exact h'
  | text head start joins _ ih => exact .text head start joins (ih h')
  | name start _ ih => exact .name start (ih h')

theorem split (h : Spells first (ps ++ qs) last) :
    ∃ next, Spells first ps next ∧ Spells next qs last := by
  induction ps generalizing first with
  | nil => exact ⟨first, .nil, h⟩
  | cons p ps ih =>
    cases h with
    | text head start joins rest =>
      obtain ⟨next, hps, hqs⟩ := ih rest
      exact ⟨next, .text head start joins hps, hqs⟩
    | name start rest =>
      obtain ⟨next, hps, hqs⟩ := ih rest
      exact ⟨next, .name start hps, hqs⟩

section Separated

variable {separator : String} {c : Char} {parts : List (List SqlPiece)}
  (hparts : ∀ part ∈ parts, Spells first part next) (head : separator.toList.head? = some c)
  (start : next c) (joins : Joins first separator.toList)

include hparts head start joins

/-- Parts that start and end alike, with separators that lead from one to the next. -/
theorem separated_of_ne_nil (hne : parts ≠ []) : Spells first (separated separator parts) next := by
  fun_induction separated separator parts with
  | case1 => exact absurd rfl hne
  | case2 part => exact hparts part List.mem_cons_self
  | case3 part other rest ih =>
    have hrest := ih (fun p hp => hparts p (List.mem_cons_of_mem _ hp)) (List.cons_ne_nil _ _)
    exact (hparts part List.mem_cons_self).append (.text head start joins hrest)

theorem separated_append (hempty : Spells first qs last) (hrest : Spells next qs last) :
    Spells first (separated separator parts ++ qs) last := by
  by_cases hne : parts = []
  · subst hne
    exact hempty
  · exact (separated_of_ne_nil hparts head start joins hne).append hrest

end Separated

theorem start (h : Spells first ps last) (c : Char) (hc : (assemble ps).toList.head? = some c) :
    first c := by
  cases h with
  | nil => cases hc
  | text head start =>
    rw [assemble, String.toList_append, SqlPiece.sql, List.head?_append, head] at hc
    obtain rfl := Option.some.inj hc
    exact start
  | name start =>
    rw [assemble, String.toList_append, SqlPiece.sql, Rows.toList_quoteName] at hc
    obtain rfl := Option.some.inj hc
    exact start

theorem ne_nil {c : Char} (h : Spells first ps last) (hfirst : first c) (hlast : ¬last c) :
    (assemble ps).toList ≠ [] := by
  cases h with
  | nil => exact absurd hfirst hlast
  | text head =>
    obtain ⟨cs, hcs⟩ := List.head?_eq_some_iff.1 head
    simp [assemble, SqlPiece.sql, hcs]
  | name => simp [assemble, SqlPiece.sql, Rows.toList_quoteName]

/-- The assembled text may be put in front of what may stand behind its last piece. -/
theorem joins {s : List Char} (h : Spells first ps last) (hs : Joins first s)
    (hplain : ∀ n ∈ namesOf ps, '`' ∉ n.toList) : Joins last (s ++ (assemble ps).toList) := by
  induction h generalizing s with
  | nil => rwa [assemble, String.toList_empty, List.append_nil]
  | @text _ _ _ text c ps head start joins _ ih =>
    obtain ⟨cs, hcs⟩ := List.head?_eq_some_iff.1 head
    rw [assemble, String.toList_append, SqlPiece.sql, ← List.append_assoc]
    refine ih ?_ hplain
    rw [hcs] at joins ⊢
    exact hs.append start joins
  | @name _ _ n ps start _ ih =>
    rw [assemble, String.toList_append, SqlPiece.sql, ← List.append_assoc]
    have hn : '`' ∉ n.toList := hplain n List.mem_cons_self
    refine ih ?_ fun m hm => hplain m (List.mem_cons_of_mem _ hm)
    have hjoins := Joins.quoted hn
    rw [Rows.toList_quoteName] at hjoins ⊢
    exact hs.append start hjoins

end Spells

/-- A name piece denotes its name: the token behind the pieces in front of it. -/
def DenotesNames (ps : List SqlPiece) : Prop :=
  ∀ front n back, ps = front ++ .name n :: back → Denotes (assemble ps) (assemble front) n

section Names

variable {first next : Char → Prop} {front back : List SqlPiece} {n : String}

theorem toList_assemble_name (front back : List SqlPiece) (n : String) :
    (assemble (front ++ .name n :: back)).toList =
      (assemble front).toList ++ '`' :: (n.toList ++ '`' :: (assemble back).toList) := by
  rw [assemble_append, String.toList_append, assemble, String.toList_append, SqlPiece.sql,
    Rows.toList_quoteName, List.cons_append, List.append_assoc]
  rfl

theorem lexemes_assemble_name (hfront : Joins next (assemble front).toList) (hquote : next '`')
    (back : List SqlPiece) :
    lexemes (assemble (front ++ .name n :: back)).toList =
      lexemes (assemble front).toList ++
        lexemes ('`' :: (n.toList ++ '`' :: (assemble back).toList)) := by
  rw [toList_assemble_name]
  refine hfront _ fun c hc => ?_
  obtain rfl := Option.some.inj hc
  exact hquote

theorem denotes_of_not_mem (hfront : Joins next (assemble front).toList) (hquote : next '`')
    (hback : ∀ c, (assemble back).toList.head? = some c → c ≠ '`') (hn : '`' ∉ n.toList) :
    Denotes (assemble (front ++ .name n :: back)) (assemble front) n := by
  have hquoted := Rows.lexemes_quoted hn fun hhead => hback '`' hhead rfl
  rw [denotes_iff_lexemes, lexemes_assemble_name hfront hquote, hquoted]
  exact ⟨_, _, _, rfl, lexemes_flatten _, rfl, (Rows.toList_quoteName n).symm⟩

theorem not_mem_of_denotes (hfront : Joins next (assemble front).toList) (hquote : next '`')
    (hback : (assemble back).toList ≠ [])
    (h : Denotes (assemble (front ++ .name n :: back)) (assemble front) n) : '`' ∉ n.toList := by
  obtain ⟨xs, x, ys, hlexemes, hxs, hkind, htext⟩ := denotes_iff_lexemes.1 h
  have hne : ∀ y ∈ lexemes (assemble (front ++ .name n :: back)).toList, y.text ≠ [] :=
    text_ne_nil_of_mem_lexemes
  rw [lexemes_assemble_name hfront hquote, lexemes_cons] at hlexemes hne
  obtain rfl := eq_of_flatMap_text hlexemes hne ((lexemes_flatten _).trans hxs.symm)
  obtain ⟨rfl, -⟩ := List.cons.inj (List.append_cancel_left hlexemes)
  exact not_mem_of_lexeme_quote hback hkind htext

end Names

/-- Every name between backticks is a single token that denotes it exactly when none of the names
contains a backtick. The pieces do not end in a name: some character may follow a name but not them. -/
theorem Spells.denotesNames_iff {first last : Char → Prop} {ps : List SqlPiece} {c : Char}
    (h : Spells first ps last) (hc : c ≠ '`') (hlast : ¬last c) :
    DenotesNames ps ↔ ∀ n ∈ namesOf ps, '`' ∉ n.toList := by
  have hjoins : ∀ {front back : List SqlPiece} {n : String}, ps = front ++ .name n :: back →
      (∀ m ∈ namesOf front, '`' ∉ m.toList) → ∃ next, next '`' ∧
        Joins next (assemble front).toList ∧ Spells (· ≠ '`') back last := by
    rintro front back n rfl hplain
    obtain ⟨next, hfront, hrest⟩ := h.split
    cases hrest with
    | name start rest => exact ⟨next, start, hfront.joins .nil hplain, rest⟩
  constructor
  · intro hdenotes
    suffices hall : ∀ front back, ps = front ++ back → ∀ n ∈ namesOf front, '`' ∉ n.toList by
      exact hall ps [] (List.append_nil ps).symm
    intro front
    -- Induction from the front on: up to the first such name the pieces read as they were put.
    induction front using List.reverseRecOn with
    | nil => exact fun _ _ n hn => absurd hn List.not_mem_nil
    | append_singleton front piece ih =>
      intro back hps n hn
      rw [List.append_assoc, List.singleton_append] at hps
      have hplain := ih (piece :: back) hps
      rw [namesOf_append, List.mem_append] at hn
      rcases hn with hn | hn
      · exact hplain n hn
      · cases piece with
        | text s => cases hn
        | name m =>
          obtain rfl := List.mem_singleton.1 hn
          obtain ⟨next, hquote, hfront, hback⟩ := hjoins hps hplain
          have hdenotes := hdenotes front n back hps
          rw [hps] at hdenotes
          exact not_mem_of_denotes hfront hquote (hback.ne_nil hc hlast) hdenotes
  · rintro hplain front n back rfl
    have hfront : ∀ m ∈ namesOf front, '`' ∉ m.toList := fun m hm =>
      hplain m (by rw [namesOf_append]; exact List.mem_append_left _ hm)
    have hn : '`' ∉ n.toList := hplain n (by rw [namesOf_append]; simp [namesOf, SqlPiece.name?])
    obtain ⟨next, hquote, hjoin, hback⟩ := hjoins rfl hfront
    exact denotes_of_not_mem hjoin hquote hback.start hn

end DataAccess.Sql
