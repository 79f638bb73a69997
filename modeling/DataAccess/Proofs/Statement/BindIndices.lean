import DataAccess.Proofs.Sql.Normalization
import DataAccess.Statement.Placeholders

/-!
Whether the indices of placeholders are words. A text without errors spells only indices that are,
but an index is counted on from the largest one before it, and the largest word can be spelled.
-/

set_option autoImplicit false

namespace DataAccess.Sql

theorem spelledIndex?_eq_some {digits : List Char} {n : Nat} (h : spelledIndex? digits = some n) :
    digits ≠ [] ∧ n = digitsValue digits ∧ 0 < n ∧ n ≤ maxIndex := by
  simp only [spelledIndex?] at h
  split at h
  · rename_i hdigits
    obtain rfl := Option.some.inj h
    exact ⟨hdigits.1, rfl, hdigits.2.2⟩
  · cases h

/-- A split whose lexeme, if it is a sound positional placeholder, is a `?` alone or spells an
index. -/
def SpellsIndex (split : Lexeme × List Char) : Prop :=
  split.1.kind = .bind none → split.1.fault = none →
    split.1.text.tail = [] ∨ (spelledIndex? split.1.text.tail).isSome

theorem SpellsIndex.of_other {x : Lexeme} {rest : List Char} (h : x.kind ≠ .bind none) :
    SpellsIndex (x, rest) := fun hkind => absurd hkind h

theorem named_spellsIndex (cs : List Char) : SpellsIndex (named cs) :=
  iteInduction (fun _ => SpellsIndex.of_other nofun) fun _ => SpellsIndex.of_other nofun

theorem positional_spellsIndex (cs : List Char) : SpellsIndex (positional cs) := by
  intro _ hfault
  simp only [positional] at hfault ⊢
  split at hfault
  · cases hfault
  · rename_i hjunk
    rw [Decidable.not_not.1 hjunk, List.append_nil, List.tail_cons]
    split at hfault
    · cases hfault
    · rename_i hspelled
      rw [Option.isSome_iff_ne_none]
      exact (Decidable.not_and_iff_not_or_not.1 hspelled).imp Decidable.not_not.1 id

theorem lexeme_spellsIndex (c : Char) (cs : List Char) : SpellsIndex (lexeme c cs) := by
  unfold lexeme
  repeat' with_reducible refine iteInduction (fun _ => ?_) fun _ => ?_
  all_goals first
    | exact positional_spellsIndex cs
    | exact named_spellsIndex cs
    | exact SpellsIndex.of_other nofun

theorem lexemes_spellIndex {cs : List Char} {x : Lexeme} (hx : x ∈ lexemes cs)
    (hkind : x.kind = .bind none) (hfault : x.fault = none) :
    x.text.tail = [] ∨ (spelledIndex? x.text.tail).isSome := by
  fun_induction lexemes cs with
  | case1 => cases hx
  | case2 c cs ih =>
    rcases List.mem_cons.1 hx with rfl | hx
    · exact lexeme_spellsIndex c cs hkind hfault
    · exact ih hx

/-- A placeholder with a name, a `?` alone or a `?N` in which `N` is an index. -/
def IsSound (bind : String × Option String) : Prop :=
  bind.2 = none → bind.1.toList.tail = [] ∨ (spelledIndex? bind.1.toList.tail).isSome

theorem isSound_of_mem_binds {text : String} (h : (tokenize text).errors = []) :
    ∀ bind ∈ (Query.parse text).binds, IsSound bind := by
  intro bind hbind hname
  rw [Query.parse, parseWith_binds, bindsOf, List.mem_filterMap] at hbind
  obtain ⟨x, hx, hbind⟩ := hbind
  have hfault := ((tokenize_errors_eq_nil_iff text).1 h).fault x hx
  obtain ⟨kind, chars, fault⟩ := x
  cases kind with
  | bind name =>
    obtain rfl := Option.some.inj hbind
    obtain rfl : name = none := hname
    have hspells := lexemes_spellIndex hx rfl hfault
    rwa [← String.toList_ofList (l := chars)] at hspells
  | _ => cases hbind

/-- The number of a placeholder, given the largest one so far and those of the names already used.
It has no limit: `?N` has the number `N`, a `?` alone has the one after the largest, and so has a name
on its first use. -/
def numberOf (largest : Nat) (named : List (String × Nat)) : String × Option String → Nat
  | (_, some name) => (named.lookup name).getD (largest + 1)
  | (text, none) =>
    if text.toList.tail = [] then largest + 1 else digitsValue text.toList.tail

/-- The numbers of the names used, after a placeholder with a number. -/
def remember (bind : String × Option String) (n : Nat) (named : List (String × Nat)) :
    List (String × Nat) :=
  match bind.2 with
  | some name => (name, n) :: named
  | none => named

def numbersFrom (largest : Nat) (named : List (String × Nat)) :
    List (String × Option String) → List Nat
  | [] => []
  | bind :: rest =>
    let n := numberOf largest named bind
    n :: numbersFrom (max largest n) (remember bind n named) rest

/-- The numbers of all placeholders in order. -/
def Query.numbers (q : Query) : List Nat := numbersFrom 0 [] q.binds

/-- The target of a placeholder with a number. -/
def BindTarget.of (bind : String × Option String) (n : Nat) : BindTarget :=
  match bind.2 with
  | some name => .named name
  | none => .index n

/-- The sums that are computed for the targets of placeholders, each of the largest index so far and
one: at the first use of a name, and at every placeholder without a name, needed or not. -/
def sumsFrom (largest : Nat) (used : List String) : List (String × Option String) → List Nat
  | [] => []
  | (_, some name) :: rest =>
    if used.contains name then sumsFrom largest used rest
    else (largest + 1) :: sumsFrom (nextIndex largest) (name :: used) rest
  | (text, none) :: rest =>
    let index := (spelledIndex? text.toList.tail).getD (nextIndex largest)
    (largest + 1) :: sumsFrom (max largest index) used rest

/-- A placeholder without a name, or with one that is not among the ones used so far. -/
def IsCounted (named : List (String × Nat)) (bind : String × Option String) : Prop :=
  ∀ name, bind.2 = some name → named.lookup name = none

/-- A placeholder without a name, or with one that none of the placeholders before it has. -/
def IsNew (before : List (String × Option String)) (bind : String × Option String) : Prop :=
  ∀ name, bind.2 = some name → ∀ b ∈ before, b.2 ≠ some name

theorem isCounted_remember {named : List (String × Nat)} {n : Nat}
    {b bind : String × Option String} :
    IsCounted (remember b n named) bind ↔ IsCounted named bind ∧ IsNew [b] bind := by
  obtain ⟨text, name?⟩ := b
  cases name? with
  | none => simp [remember, IsNew]
  | some other =>
    simp only [IsCounted, IsNew, remember, List.mem_singleton, forall_eq, ← forall_and, ne_eq,
      Option.some.injEq, List.lookup_cons]
    refine forall_congr' fun name => forall_congr' fun _ => ?_
    by_cases he : name = other
    · simp [he]
    · have hbeq : (name == other) = false := by simpa using he
      simp [hbeq, Ne.symm he]

theorem isNew_cons {before : List (String × Option String)} {b bind : String × Option String} :
    IsNew (b :: before) bind ↔ IsNew [b] bind ∧ IsNew before bind := by
  simp [IsNew, ← forall_and]

theorem nextIndex_of_lt {n : Nat} (h : n < maxIndex) : nextIndex n = n + 1 :=
  Nat.mod_eq_of_lt (Nat.succ_lt_succ h)

theorem priorIndex_of_pos {n : Nat} (hpos : 0 < n) (hle : n ≤ maxIndex) : priorIndex n = n - 1 := by
  have hsum : n + maxIndex = n - 1 + (maxIndex + 1) := by omega
  rw [priorIndex, hsum, Nat.add_mod_right, Nat.mod_eq_of_lt (by omega)]

/-- In a sound placeholder without a name the spelled index is the number, if there are digits. -/
theorem IsSound.number_cases {text : String} (h : IsSound (text, none)) :
    text.toList.tail = [] ∧ spelledIndex? text.toList.tail = none ∨
    text.toList.tail ≠ [] ∧
      spelledIndex? text.toList.tail = some (digitsValue text.toList.tail) ∧
      0 < digitsValue text.toList.tail ∧ digitsValue text.toList.tail ≤ maxIndex := by
  by_cases hdigits : text.toList.tail = []
  · rw [hdigits]
    exact .inl ⟨rfl, rfl⟩
  · obtain ⟨n, hn⟩ := Option.isSome_iff_exists.1 ((h rfl).resolve_left hdigits)
    obtain ⟨-, rfl, hpos, hle⟩ := spelledIndex?_eq_some hn
    exact .inr ⟨hdigits, hn, hpos, hle⟩

/-- The names already used are those that have numbers, which are no larger than the largest one. -/
structure Agrees (largest : Nat) (used : List String) (named : List (String × Nat)) : Prop where
  known : ∀ name, used.contains name = (named.lookup name).isSome
  below : ∀ {name n}, named.lookup name = some n → 0 < n ∧ n ≤ largest

namespace Agrees

variable {largest : Nat} {used : List String} {named : List (String × Nat)}
  {bind : String × Option String}

theorem nil : Agrees 0 [] [] := ⟨fun _ => rfl, nofun⟩

theorem mono {more : Nat} (h : Agrees largest used named) (hle : largest ≤ more) :
    Agrees more used named :=
  ⟨h.known, fun hn => ⟨(h.below hn).1, Nat.le_trans (h.below hn).2 hle⟩⟩

theorem cons {name : String} {n : Nat} (h : Agrees largest used named) (hpos : 0 < n) :
    Agrees (max largest n) (name :: used) ((name, n) :: named) where
  known other := by
    rw [List.contains_cons, List.lookup_cons, h.known]
    cases other == name <;> rfl
  below {other m} hm := by
    rw [List.lookup_cons] at hm
    split at hm
    · obtain rfl := Option.some.inj hm
      exact ⟨hpos, Nat.le_max_right ..⟩
    · exact ⟨(h.below hm).1, Nat.le_trans (h.below hm).2 (Nat.le_max_left ..)⟩

/-- A name that is used again keeps its number. -/
theorem again {name : String} {n : Nat} (h : Agrees largest used named)
    (hn : named.lookup name = some n) : Agrees (max largest n) used ((name, n) :: named) where
  known other := by
    rw [List.lookup_cons, h.known]
    split
    · rename_i he
      rw [beq_iff_eq.1 he, hn]
    · rfl
  below {other m} hm := by
    rw [List.lookup_cons] at hm
    rw [Nat.max_eq_left (h.below hn).2]
    split at hm
    · obtain rfl := Option.some.inj hm
      exact h.below hn
    · exact h.below hm

theorem numberOf_pos (h : Agrees largest used named) (hbind : IsSound bind) :
    0 < numberOf largest named bind := by
  obtain ⟨text, name?⟩ := bind
  cases name? with
  | some name =>
    rw [numberOf]
    cases hlookup : named.lookup name with
    | none => exact Nat.succ_pos _
    | some n => exact (h.below hlookup).1
  | none =>
    rcases hbind.number_cases with ⟨htail, -⟩ | ⟨htail, -, hpos, -⟩
    · simp [numberOf, htail]
    · simpa [numberOf, htail] using hpos

theorem numberOf_le (h : Agrees largest used named) (hbind : IsSound bind)
    (hlargest : largest ≤ maxIndex) (hcounted : IsCounted named bind → largest < maxIndex) :
    numberOf largest named bind ≤ maxIndex := by
  obtain ⟨text, name?⟩ := bind
  cases name? with
  | some name =>
    rw [numberOf]
    cases hlookup : named.lookup name with
    | none => exact hcounted fun other hother => Option.some.inj hother ▸ hlookup
    | some n => exact Nat.le_trans (h.below hlookup).2 hlargest
  | none =>
    rcases hbind.number_cases with ⟨htail, -⟩ | ⟨htail, -, -, hle⟩
    · have hlt : largest < maxIndex := hcounted nofun
      simpa [numberOf, htail] using Nat.succ_le_of_lt hlt
    · simpa [numberOf, htail] using hle

/-- What one placeholder does: its target has its number, it computes a sum if it is counted, and the
names used with it agree with the numbers behind it. -/
structure Steps (largest : Nat) (used : List String) (named : List (String × Nat))
    (bind : String × Option String) (used' : List String) : Prop where
  agrees : Agrees (max largest (numberOf largest named bind)) used'
    (remember bind (numberOf largest named bind) named)
  targets : ∀ rest, Query.targetsFrom largest used (bind :: rest) =
    BindTarget.of bind (numberOf largest named bind) ::
      Query.targetsFrom (max largest (numberOf largest named bind)) used' rest
  sums : ∀ rest n, n ∈ sumsFrom largest used (bind :: rest) ↔
    (IsCounted named bind ∧ n = largest + 1) ∨
      n ∈ sumsFrom (max largest (numberOf largest named bind)) used' rest

/-- The first use of a name takes the number after the largest one, which is a word. -/
theorem step_first {text name : String} (h : Agrees largest used named)
    (hlookup : named.lookup name = none) (hlt : largest < maxIndex) :
    Steps largest used named (text, some name) (name :: used) := by
  have hnumber : numberOf largest named (text, some name) = largest + 1 := by
    rw [numberOf, hlookup, Option.getD_none]
  have hnew : ¬used.contains name = true := by
    rw [h.known, hlookup]
    exact Bool.false_ne_true
  have hcounted : IsCounted named (text, some name) := fun other hother =>
    Option.some.inj hother ▸ hlookup
  have hnext : nextIndex largest = largest + 1 := nextIndex_of_lt hlt
  refine ⟨hnumber ▸ h.cons (Nat.succ_pos _), fun rest => ?_, fun rest n => ?_⟩
  · rw [hnumber, Query.targetsFrom, if_neg hnew, hnext, Nat.max_eq_right (Nat.le_succ largest)]
    rfl
  · rw [hnumber, sumsFrom, if_neg hnew, hnext, Nat.max_eq_right (Nat.le_succ largest)]
    simp [hcounted]

/-- A name that was used before keeps its number, and computes nothing. -/
theorem step_again {text name : String} {n : Nat} (h : Agrees largest used named)
    (hlookup : named.lookup name = some n) : Steps largest used named (text, some name) used := by
  have hnumber : numberOf largest named (text, some name) = n := by
    rw [numberOf, hlookup, Option.getD_some]
  have hused : used.contains name = true := by rw [h.known, hlookup, Option.isSome_some]
  have hcounted : ¬IsCounted named (text, some name) := fun hcounted =>
    nomatch hlookup.symm.trans (hcounted name rfl)
  refine ⟨hnumber ▸ h.again hlookup, fun rest => ?_, fun rest m => ?_⟩
  · rw [hnumber, Nat.max_eq_left (h.below hlookup).2, Query.targetsFrom, if_pos hused]
    rfl
  · rw [hnumber, Nat.max_eq_left (h.below hlookup).2, sumsFrom, if_pos hused]
    simp [hcounted]

/-- Without a name the number is the index that is spelled, or else the next one, if a word. -/
theorem step_unnamed {text : String} (h : Agrees largest used named)
    (hbind : IsSound (text, none)) (hle : numberOf largest named (text, none) ≤ maxIndex) :
    Steps largest used named (text, none) used := by
  have hcounted : IsCounted named (text, none) := nofun
  have hindex : (spelledIndex? text.toList.tail).getD (nextIndex largest) =
      numberOf largest named (text, none) := by
    rcases hbind.number_cases with ⟨htail, hspelled⟩ | ⟨htail, hspelled, -⟩
    · have hnumber : numberOf largest named (text, none) = largest + 1 := by
        rw [numberOf, if_pos htail]
      rw [hnumber] at hle ⊢
      rw [hspelled, Option.getD_none, nextIndex_of_lt hle]
    · rw [hspelled, numberOf, if_neg htail, Option.getD_some]
  refine ⟨h.mono (Nat.le_max_left ..), fun rest => ?_, fun rest n => ?_⟩
  · rw [← hindex]
    rfl
  · rw [← hindex]
    simp [sumsFrom, hcounted]

/-- A placeholder whose number is a word has that number. -/
theorem step (h : Agrees largest used named) (hbind : IsSound bind)
    (hle : numberOf largest named bind ≤ maxIndex) :
    ∃ used', Steps largest used named bind used' := by
  obtain ⟨text, name?⟩ := bind
  cases name? with
  | some name =>
    cases hlookup : named.lookup name with
    | none =>
      rw [numberOf, hlookup, Option.getD_none] at hle
      exact ⟨_, h.step_first hlookup hle⟩
    | some n => exact ⟨_, h.step_again hlookup⟩
  | none => exact ⟨_, h.step_unnamed hbind hle⟩

variable {binds : List (String × Option String)}

theorem numbersFrom_pos (h : Agrees largest used named) (hsound : ∀ b ∈ binds, IsSound b)
    (hle : ∀ n ∈ numbersFrom largest named binds, n ≤ maxIndex) :
    ∀ n ∈ numbersFrom largest named binds, 0 < n := by
  induction binds generalizing largest used named with
  | nil => exact nofun
  | cons bind rest ih =>
    have hbind := hsound bind List.mem_cons_self
    obtain ⟨used', hstep⟩ := h.step hbind (hle _ List.mem_cons_self)
    intro n hn
    rcases List.mem_cons.1 hn with rfl | hn
    · exact h.numberOf_pos hbind
    · exact ih hstep.agrees (fun b hb => hsound b (List.mem_cons_of_mem _ hb))
        (fun n hn => hle n (List.mem_cons_of_mem _ hn)) n hn

/-- Placeholders whose numbers are words have these numbers. -/
theorem targetsFrom_eq (h : Agrees largest used named) (hsound : ∀ b ∈ binds, IsSound b)
    (hle : ∀ n ∈ numbersFrom largest named binds, n ≤ maxIndex) :
    Query.targetsFrom largest used binds =
      List.zipWith BindTarget.of binds (numbersFrom largest named binds) := by
  induction binds generalizing largest used named with
  | nil => rfl
  | cons bind rest ih =>
    obtain ⟨used', hstep⟩ :=
      h.step (hsound bind List.mem_cons_self) (hle _ List.mem_cons_self)
    rw [hstep.targets rest, ih hstep.agrees (fun b hb => hsound b (List.mem_cons_of_mem _ hb))
      fun n hn => hle n (List.mem_cons_of_mem _ hn)]
    rfl

theorem sum_mem (h : Agrees largest used named) {bind : String × Option String}
    (hcounted : IsCounted named bind) (rest : List (String × Option String)) :
    largest + 1 ∈ sumsFrom largest used (bind :: rest) := by
  obtain ⟨text, name?⟩ := bind
  cases name? with
  | some name =>
    have hnew : ¬used.contains name = true := by
      rw [h.known, hcounted name rfl]
      exact Bool.false_ne_true
    rw [sumsFrom, if_neg hnew]
    exact List.mem_cons_self
  | none => exact List.mem_cons_self

/-- The places at which a placeholder is counted: at the first one, and at those behind it. -/
theorem forall_counted_cons {rest : List (String × Option String)}
    {P : List (String × Option String) → Prop} (n : Nat) :
    (∀ before other after, bind :: rest = before ++ other :: after →
        IsCounted named other → IsNew before other → P before) ↔
      (IsCounted named bind → P []) ∧
      ∀ before other after, rest = before ++ other :: after →
        IsCounted (remember bind n named) other → IsNew before other → P (bind :: before) := by
  constructor
  · intro h
    refine ⟨fun hcounted => h [] bind rest rfl hcounted nofun,
      fun before other after hsplit hother hnew => ?_⟩
    obtain ⟨hother, hfirst⟩ := isCounted_remember.1 hother
    exact h (bind :: before) other after (congrArg _ hsplit) hother (isNew_cons.2 ⟨hfirst, hnew⟩)
  · rintro ⟨hfirst, hrest⟩ before other after hsplit hother hnew
    cases before with
    | nil =>
      obtain rfl := (List.cons.inj hsplit).1
      exact hfirst hother
    | cons b before =>
      obtain ⟨rfl, htail⟩ := List.cons.inj hsplit
      obtain ⟨hne, hnew⟩ := isNew_cons.1 hnew
      exact hrest before other after htail (isCounted_remember.2 ⟨hother, hne⟩) hnew

/-- All sums are words when every placeholder that computes one has only smaller numbers than the
largest word before it. -/
theorem sumsFrom_le_iff (h : Agrees largest used named) (hsound : ∀ b ∈ binds, IsSound b)
    (hlargest : largest ≤ maxIndex) :
    (∀ n ∈ sumsFrom largest used binds, n ≤ maxIndex) ↔
      ∀ before bind after, binds = before ++ bind :: after →
        IsCounted named bind → IsNew before bind →
        largest < maxIndex ∧ ∀ n ∈ numbersFrom largest named before, n < maxIndex := by
  induction binds generalizing largest used named with
  | nil => simp [sumsFrom]
  | cons bind rest ih =>
    have hbind := hsound bind List.mem_cons_self
    have hrest : ∀ b ∈ rest, IsSound b := fun b hb => hsound b (List.mem_cons_of_mem _ hb)
    let number := numberOf largest named bind
    have hbehind : ∀ before,
        (largest < maxIndex ∧ ∀ n ∈ numbersFrom largest named (bind :: before), n < maxIndex) ↔
          max largest number < maxIndex ∧
            ∀ n ∈ numbersFrom (max largest number) (remember bind number named) before,
              n < maxIndex := fun before => by
      rw [numbersFrom, List.forall_mem_cons, Nat.max_lt, and_assoc]
    rw [forall_counted_cons number]
    constructor
    · intro hsums
      have hcounted : IsCounted named bind → largest < maxIndex := fun hc =>
        hsums _ (h.sum_mem hc rest)
      have hle := h.numberOf_le hbind hlargest hcounted
      obtain ⟨used', hstep⟩ := h.step hbind hle
      have hsplits := (ih hstep.agrees hrest (Nat.max_le.2 ⟨hlargest, hle⟩)).1 fun n hn =>
        hsums n ((hstep.sums rest n).2 (.inr hn))
      exact ⟨fun hc => ⟨hcounted hc, nofun⟩, fun before other after hsplit hother hnew =>
        (hbehind before).2 (hsplits before other after hsplit hother hnew)⟩
    · rintro ⟨hfirst, hsplits⟩ n hn
      have hle := h.numberOf_le hbind hlargest fun hc => (hfirst hc).1
      obtain ⟨used', hstep⟩ := h.step hbind hle
      rcases (hstep.sums rest n).1 hn with ⟨hc, rfl⟩ | hn
      · exact (hfirst hc).1
      · refine (ih hstep.agrees hrest (Nat.max_le.2 ⟨hlargest, hle⟩)).2 ?_ n hn
        exact fun before other after hsplit hother hnew =>
          (hbehind before).1 (hsplits before other after hsplit hother hnew)

/-- If all sums are words, then so are all numbers. -/
theorem numbersFrom_le (h : Agrees largest used named) (hsound : ∀ b ∈ binds, IsSound b)
    (hlargest : largest ≤ maxIndex) (hsums : ∀ n ∈ sumsFrom largest used binds, n ≤ maxIndex) :
    ∀ n ∈ numbersFrom largest named binds, n ≤ maxIndex := by
  induction binds generalizing largest used named with
  | nil => exact nofun
  | cons bind rest ih =>
    have hbind := hsound bind List.mem_cons_self
    have hle := h.numberOf_le hbind hlargest fun hc => hsums _ (h.sum_mem hc rest)
    obtain ⟨used', hstep⟩ := h.step hbind hle
    refine List.forall_mem_cons.2 ⟨hle, ?_⟩
    exact ih hstep.agrees (fun b hb => hsound b (List.mem_cons_of_mem _ hb))
      (Nat.max_le.2 ⟨hlargest, hle⟩) fun n hn => hsums n ((hstep.sums rest n).2 (.inr hn))

end Agrees

/-- Each placeholder takes the numbers at most one further. -/
theorem numbersFrom_le_add {largest bound : Nat} {named : List (String × Nat)}
    {binds : List (String × Option String)} (hlargest : largest ≤ bound)
    (hnamed : ∀ {name n}, named.lookup name = some n → n ≤ bound)
    (hspelled : ∀ b ∈ binds, b.2 = none → digitsValue b.1.toList.tail ≤ bound) :
    ∀ n ∈ numbersFrom largest named binds, n ≤ bound + binds.length := by
  induction binds generalizing largest bound named with
  | nil => exact nofun
  | cons bind rest ih =>
    have hnumber : numberOf largest named bind ≤ bound + 1 := by
      obtain ⟨text, name?⟩ := bind
      cases name? with
      | some name =>
        rw [numberOf]
        cases hlookup : named.lookup name with
        | none => exact Nat.succ_le_succ hlargest
        | some n => exact Nat.le_succ_of_le (hnamed hlookup)
      | none =>
        have hdigits := hspelled (text, none) List.mem_cons_self rfl
        rw [numberOf]
        split
        · exact Nat.succ_le_succ hlargest
        · exact Nat.le_succ_of_le hdigits
    have hremember : ∀ {name n}, (remember bind (numberOf largest named bind) named).lookup name =
        some n → n ≤ bound + 1 := by
      intro name n hn
      obtain ⟨text, name?⟩ := bind
      cases name? with
      | some other =>
        rw [remember, List.lookup_cons] at hn
        split at hn
        · exact Option.some.inj hn ▸ hnumber
        · exact Nat.le_succ_of_le (hnamed hn)
      | none => exact Nat.le_succ_of_le (hnamed hn)
    have hrest := ih (Nat.max_le.2 ⟨Nat.le_succ_of_le hlargest, hnumber⟩) hremember fun b hb hname =>
      Nat.le_succ_of_le (hspelled b (List.mem_cons_of_mem _ hb) hname)
    rw [List.length_cons, ← Nat.add_assoc, Nat.add_right_comm]
    exact List.forall_mem_cons.2 ⟨Nat.le_add_right_of_le hnumber, hrest⟩

end DataAccess.Sql

namespace DataAccess.Statement

open Sql

/-- The targets of a query are the numbers of its placeholders, which are words, and the parameters
are looked up at the positions before them. -/
structure AsNumbered (q : Query) : Prop where
  targets : q.bindTargets = List.zipWith BindTarget.of q.binds q.numbers
  isWord : ∀ n, .index n ∈ q.bindTargets → 1 ≤ n ∧ n ≤ maxIndex
  lookUp : ∀ n, .index n ∈ q.bindTargets → ∀ params, paramOf? params (.index n) = params[n - 1]?

/-- No sum that is computed for the targets of a query is larger than a word, and the targets are as
numbered. -/
structure InRange (q : Query) : Prop extends AsNumbered q where
  sums : ∀ n ∈ sumsFrom 0 [] q.binds, n ≤ maxIndex

theorem mem_zipWith_of {binds : List (String × Option String)} {numbers : List Nat} {n : Nat}
    (h : .index n ∈ List.zipWith BindTarget.of binds numbers) : n ∈ numbers := by
  obtain ⟨i, hi⟩ := List.mem_iff_getElem?.1 h
  obtain ⟨bind, m, -, hm, htarget⟩ := List.getElem?_zipWith_eq_some.1 hi
  obtain ⟨text, name?⟩ := bind
  cases name? with
  | some name => cases htarget
  | none =>
    obtain rfl := BindTarget.index.inj htarget
    exact List.mem_of_getElem? hm

section

variable {text : String}

theorem asNumbered_of_le (h : (tokenize text).errors = [])
    (hle : ∀ n ∈ (Query.parse text).numbers, n ≤ maxIndex) : AsNumbered (Query.parse text) := by
  have hsound := isSound_of_mem_binds h
  have htargets : (Query.parse text).bindTargets = _ := Agrees.nil.targetsFrom_eq hsound hle
  have hword : ∀ n, .index n ∈ (Query.parse text).bindTargets → 1 ≤ n ∧ n ≤ maxIndex := by
    intro n hn
    rw [htargets] at hn
    have hmem := mem_zipWith_of hn
    exact ⟨Agrees.nil.numbersFrom_pos hsound hle n hmem, hle n hmem⟩
  refine ⟨htargets, hword, fun n hn params => ?_⟩
  rw [paramOf?, priorIndex_of_pos (hword n hn).1 (hword n hn).2]

theorem inRange_of_below (h : (tokenize text).errors = [])
    (hbelow : ∀ before bind after, (Query.parse text).binds = before ++ bind :: after →
      IsNew before bind → ∀ n ∈ numbersFrom 0 [] before, n < maxIndex) :
    InRange (Query.parse text) := by
  have hsound := isSound_of_mem_binds h
  have hsums := (Agrees.nil.sumsFrom_le_iff hsound (Nat.zero_le maxIndex)).2
    fun before bind after hsplit _ hnew => ⟨by decide, hbelow before bind after hsplit hnew⟩
  exact ⟨asNumbered_of_le h (Agrees.nil.numbersFrom_le hsound (Nat.zero_le _) hsums), hsums⟩

/-- A text whose spelled indices leave a word for each of its placeholders stays in range. -/
theorem inRange_of_spelled_le {bound : Nat} (h : (tokenize text).errors = [])
    (hspelled : ∀ b ∈ (Query.parse text).binds, b.2 = none → digitsValue b.1.toList.tail ≤ bound)
    (hroom : bound + (Query.parse text).binds.length ≤ maxIndex) : InRange (Query.parse text) := by
  refine inRange_of_below h fun before bind after hsplit _ n hn => ?_
  have hle := numbersFrom_le_add (Nat.zero_le bound) (fun h => absurd h (by simp))
    (fun b hb => hspelled b (hsplit ▸ List.mem_append_left _ hb)) n hn
  have hlength := congrArg List.length hsplit
  rw [List.length_append, List.length_cons] at hlength
  omega

end

end DataAccess.Statement
