import DataAccess.Proofs.Statement.BindIndices
import DataAccess.Proofs.Statement.Placeholders

/-!
The numbers of placeholders, assigned from left to right by the rule of the database. There is one way
to assign them (`numbered_iff`), and as long as they are words the targets of a query and the parameters
that its placeholders read are told by them.
-/

set_option autoImplicit false

namespace DataAccess.Sql

/-- The decimal number that digits spell. -/
def decimalValue (digits : List Char) : Nat :=
  Nat.ofDigits 10 (digits.reverse.map fun c => c.toNat - '0'.toNat)

theorem digitsValue_eq_decimalValue (digits : List Char) :
    digitsValue digits = decimalValue digits := by
  rw [digitsValue, decimalValue, Nat.ofDigits_eq_foldr, List.foldr_map, List.foldl_eq_foldr_reverse]
  refine congrArg (fun f => digits.reverse.foldr f 0) ?_
  funext c n
  exact Nat.add_comm ..

/-- The largest of the numbers assigned so far, 0 at the start. -/
def largestOf (numbers : List Nat) : Nat := numbers.foldl max 0

theorem largestOf_append (numbers : List Nat) (n : Nat) :
    largestOf (numbers ++ [n]) = max (largestOf numbers) n := by
  simp [largestOf]

/-- The number of the placeholder that follows others with their numbers. -/
inductive Next (binds : List (String × Option String)) (numbers : List Nat) :
    String × Option String → Nat → Prop where
  /-- `?N` has the number `N`. -/
  | spelled {text : String} (h : text.toList.tail ≠ []) :
    Next binds numbers (text, none) (decimalValue text.toList.tail)
  /-- A `?` alone has one more than the largest number. -/
  | bare {text : String} (h : text.toList.tail = []) :
    Next binds numbers (text, none) (largestOf numbers + 1)
  /-- So has a name on its first use. -/
  | first {text name : String} (h : ∀ b ∈ binds, b.2 ≠ some name) :
    Next binds numbers (text, some name) (largestOf numbers + 1)
  /-- On every later use the name keeps its number. -/
  | again {text other name : String} {n : Nat} (h : ((other, some name), n) ∈ binds.zip numbers) :
    Next binds numbers (text, some name) n

/-- The numbers of placeholders from left to right. -/
inductive Numbered : List (String × Option String) → List Nat → Prop where
  | nil : Numbered [] []
  | snoc {binds : List (String × Option String)} {numbers : List Nat}
    {bind : String × Option String} {n : Nat} (h : Numbered binds numbers)
    (next : Next binds numbers bind n) : Numbered (binds ++ [bind]) (numbers ++ [n])

namespace Numbered

variable {binds : List (String × Option String)} {numbers : List Nat}
  {bind : String × Option String}

theorem length_eq (h : Numbered binds numbers) : numbers.length = binds.length := by
  induction h with
  | nil => rfl
  | snoc _ _ ih => rw [List.length_append, List.length_append, ih]; rfl

theorem of_snoc (h : Numbered (binds ++ [bind]) numbers) :
    ∃ front n, numbers = front ++ [n] ∧ Numbered binds front ∧ Next binds front bind n := by
  generalize hall : binds ++ [bind] = all at h
  cases h with
  | nil => exact absurd hall (by simp)
  | snoc h next =>
    obtain ⟨rfl, hlast⟩ := List.append_inj' hall rfl
    obtain rfl := List.head_eq_of_cons_eq hlast
    exact ⟨_, _, rfl, h, next⟩

end Numbered

/-- The largest number and the numbers of the names, behind placeholders with numbers. -/
structure Reached (binds : List (String × Option String)) (numbers : List Nat) (largest : Nat)
    (named : List (String × Nat)) : Prop where
  numbered : Numbered binds numbers
  largest_eq : largest = largestOf numbers
  lookup_iff : ∀ {name n}, named.lookup name = some n ↔
    ∃ text, ((text, some name), n) ∈ binds.zip numbers

namespace Reached

variable {binds : List (String × Option String)} {numbers : List Nat} {largest : Nat}
  {named : List (String × Nat)} {bind : String × Option String} {n : Nat}

theorem nil : Reached [] [] 0 [] := ⟨.nil, rfl, by simp⟩

theorem lookup_eq_none_iff (h : Reached binds numbers largest named) {name : String} :
    named.lookup name = none ↔ ∀ b ∈ binds, b.2 ≠ some name := by
  constructor
  · rintro hnone ⟨text, _⟩ hb rfl
    rw [← List.map_fst_zip h.numbered.length_eq.ge] at hb
    obtain ⟨⟨_, n⟩, hmem, rfl⟩ := List.mem_map.1 hb
    exact absurd (hnone.symm.trans (h.lookup_iff.2 ⟨text, hmem⟩)) nofun
  · intro hnew
    rw [Option.eq_none_iff_forall_ne_some]
    intro n hn
    obtain ⟨text, hmem⟩ := h.lookup_iff.1 hn
    exact hnew _ (List.of_mem_zip hmem).1 rfl

/-- The rule assigns the number that is computed. -/
theorem next_iff (h : Reached binds numbers largest named) :
    Next binds numbers bind n ↔ n = numberOf largest named bind := by
  constructor
  · rintro (htail | htail | hnew | hmem)
    · rw [numberOf, if_neg htail, digitsValue_eq_decimalValue]
    · rw [numberOf, if_pos htail, h.largest_eq]
    · rw [numberOf, h.lookup_eq_none_iff.2 hnew, Option.getD_none, h.largest_eq]
    · rw [numberOf, h.lookup_iff.2 ⟨_, hmem⟩, Option.getD_some]
  · rintro rfl
    obtain ⟨text, name?⟩ := bind
    cases name? with
    | none =>
      rw [numberOf]
      split
      · exact h.largest_eq ▸ .bare ‹_›
      · exact digitsValue_eq_decimalValue _ ▸ .spelled ‹_›
    | some name =>
      rw [numberOf]
      cases hlookup : named.lookup name with
      | none => exact h.largest_eq ▸ .first (h.lookup_eq_none_iff.1 hlookup)
      | some m =>
        obtain ⟨other, hmem⟩ := h.lookup_iff.1 hlookup
        exact .again hmem

theorem mem_zip_snoc (h : Reached binds numbers largest named) {entry : _ × Nat} :
    entry ∈ (binds ++ [bind]).zip (numbers ++ [n]) ↔
      entry ∈ binds.zip numbers ∨ entry = (bind, n) := by
  rw [List.zip_append h.numbered.length_eq.symm, List.mem_append]
  simp

theorem step (h : Reached binds numbers largest named) (bind : String × Option String) :
    Reached (binds ++ [bind]) (numbers ++ [numberOf largest named bind])
      (max largest (numberOf largest named bind))
      (remember bind (numberOf largest named bind) named) where
  numbered := h.numbered.snoc (h.next_iff.2 rfl)
  largest_eq := by rw [largestOf_append, h.largest_eq]
  lookup_iff {name n} := by
    obtain ⟨text, name?⟩ := bind
    simp only [h.mem_zip_snoc, exists_or, ← h.lookup_iff, Prod.mk.injEq]
    cases name? with
    | none => simp [remember]
    | some used =>
      rw [remember, List.lookup_cons]
      by_cases hname : name = used
      · -- An earlier use of the name has the same number.
        subst hname
        rw [beq_self_eq_true]
        simp only [Option.some.injEq, numberOf]
        cases named.lookup name with
        | none => simp [eq_comm]
        | some m => simp [eq_comm]
      · have hbeq : (name == used) = false := by simpa using hname
        simp [hbeq, hname]

theorem append (h : Reached binds numbers largest named) (rest : List (String × Option String)) :
    Numbered (binds ++ rest) (numbers ++ numbersFrom largest named rest) := by
  induction rest generalizing binds numbers largest named with
  | nil => simpa [numbersFrom] using h.numbered
  | cons bind rest ih =>
    have hrest := ih (h.step bind)
    rwa [List.append_assoc, List.append_assoc] at hrest

end Reached

theorem Numbered.reached {binds : List (String × Option String)} {numbers : List Nat}
    (h : Numbered binds numbers) : ∃ largest named, Reached binds numbers largest named := by
  induction h with
  | nil => exact ⟨0, [], .nil⟩
  | snoc _ next ih =>
    obtain ⟨largest, named, hreached⟩ := ih
    obtain rfl := hreached.next_iff.1 next
    exact ⟨_, _, hreached.step _⟩

/-- Placeholders have only one numbering. -/
theorem Numbered.unique {binds : List (String × Option String)} {numbers numbers' : List Nat}
    (h : Numbered binds numbers) (h' : Numbered binds numbers') : numbers' = numbers := by
  induction h generalizing numbers' with
  | nil => exact List.length_eq_zero_iff.1 h'.length_eq
  | snoc h next ih =>
    obtain ⟨front, n, rfl, hfront, hn⟩ := h'.of_snoc
    obtain rfl := ih hfront
    obtain ⟨largest, named, hreached⟩ := h.reached
    rw [hreached.next_iff.1 hn, hreached.next_iff.1 next]

/-- The rule assigns the numbers of a query, and no others. -/
theorem numbered_iff {q : Query} {numbers : List Nat} :
    Numbered q.binds numbers ↔ numbers = q.numbers := by
  have hnumbers : Numbered q.binds q.numbers := Reached.nil.append q.binds
  exact ⟨hnumbers.unique, fun h => h ▸ hnumbers⟩

/-- Placeholders have the same numbers whatever follows them. -/
theorem numbersFrom_initial (largest : Nat) (named : List (String × Nat))
    (front rest : List (String × Option String)) :
    numbersFrom largest named front <+: numbersFrom largest named (front ++ rest) := by
  induction front generalizing largest named with
  | nil => exact List.nil_prefix
  | cons bind front ih => exact List.cons_prefix_cons.2 ⟨rfl, ih ..⟩

/-- The placeholders of a query are its sections that are placeholders. -/
theorem filter_isBind (q : Query) :
    q.sections.filter Section.isBind = q.binds.map fun b => .bind b.1 b.2 := by
  rw [Query.binds]
  induction q.sections with
  | nil => rfl
  | cons s sections ih =>
    cases s with
    | text | newLine => exact ih
    | bind text name => exact congrArg (_ :: ·) ih

end DataAccess.Sql

namespace DataAccess.Statement

open Sql

/-- The parameter that a placeholder with a number reads: the one of its name, or else the one at the
position that is its number. -/
def readBy (params : List QueryParam) : String × Option String → Nat → Option QueryParam
  | (_, some name), _ => params.find? (·.placeholder = name)
  | (_, none), n => params[n - 1]?

/-- A placeholder with a number, its target and the parameter that it reads. -/
def Binding.numbered (params : List QueryParam) (bind : String × Option String) (n : Nat) : Binding :=
  ⟨bind.1, .of bind n, readBy params bind n⟩

theorem bindings_of_numbers {q : Query} (h : AsNumbered q) (params : List QueryParam) :
    (BoundQuery.mk q params).bindings =
      List.zipWith (Binding.numbered params) q.binds q.numbers := by
  have hlookUp := h.lookUp
  rw [h.targets] at hlookUp
  rw [BoundQuery.bindings, h.targets]
  refine List.ext_getElem? fun i => ?_
  simp only [List.getElem?_map, List.getElem?_zipWith, List.zip]
  cases hbind : q.binds[i]? with
  | none => simp
  | some bind =>
    cases hn : q.numbers[i]? with
    | none => simp
    | some n =>
      have htarget : BindTarget.of bind n ∈ List.zipWith BindTarget.of q.binds q.numbers :=
        List.mem_of_getElem? (i := i) (by rw [List.getElem?_zipWith, hbind, hn])
      obtain ⟨text, name?⟩ := bind
      cases name? with
      | some name => rfl
      | none =>
        have hread := hlookUp n htarget params
        simp [Binding.numbered, readBy, BindTarget.of, hread]

/-- The placeholders of a text without errors have one numbering. If all numbers are smaller than the
largest word, then there is one target for each placeholder, the name or the number of it; every
placeholder is paired with the parameter of its name or at the position that is its number; and no sum
that is computed is larger than a word. -/
theorem bindings_numbered {text : String} (h : (tokenize text).errors = []) :
    let q := Query.parse text
    ∃ numbers, (∀ other, Numbered q.binds other ↔ other = numbers) ∧
      ((∀ n ∈ numbers, n < maxIndex) →
        q.sections.filter Section.isBind = q.binds.map (fun b => .bind b.1 b.2) ∧
        numbers.length = q.binds.length ∧
        q.bindTargets = List.zipWith BindTarget.of q.binds numbers ∧
        (∀ params, (BoundQuery.mk q params).bindings =
          List.zipWith (Binding.numbered params) q.binds numbers) ∧
        ∀ n ∈ sumsFrom 0 [] q.binds, n ≤ maxIndex) := by
  intro q
  refine ⟨q.numbers, fun other => numbered_iff, fun hlt => ?_⟩
  have hrange : InRange q := inRange_of_below h fun before bind after hsplit _ n hn => by
    refine hlt n ?_
    rw [Query.numbers, hsplit]
    exact (numbersFrom_initial 0 [] before (bind :: after)).subset hn
  exact ⟨filter_isBind q, (numbered_iff.2 rfl).length_eq, hrange.targets,
    bindings_of_numbers hrange.toAsNumbered, hrange.sums⟩

/-- A number that is ahead of the others, a name that is used twice, and a position behind the last
parameter. -/
theorem bindings_numbered_mixed :
    let q := Query.parse "SELECT ?2, :a, ?, :a"
    let params : List QueryParam := [⟨"b", "b", .string, none⟩, ⟨"a", "a", .string, none⟩]
    (tokenize "SELECT ?2, :a, ?, :a").errors = [] ∧ Numbered q.binds [2, 3, 4, 3] ∧
      (∀ n ∈ [2, 3, 4, 3], n < maxIndex) ∧
      q.bindTargets = [.index 2, .named "a", .index 4, .named "a"] ∧
      (BoundQuery.mk q params).bindings.map (·.param.map QueryParam.name) =
        [some "a", some "a", none, some "a"] := by
  intro q params
  have herrors : (tokenize "SELECT ?2, :a, ?, :a").errors = [] := by decide +kernel
  have hbinds : q.binds = [("?2", none), (":a", some "a"), ("?", none), (":a", some "a")] := by
    unfold q
    rw [Query.parse, parseWith_binds]
    decide +kernel
  have hnumbered : Numbered q.binds [2, 3, 4, 3] := by
    rw [numbered_iff, Query.numbers, hbinds]
    decide +kernel
  have hlt : ∀ n ∈ [2, 3, 4, 3], n < maxIndex := by decide
  obtain ⟨numbers, hunique, hpaired⟩ := bindings_numbered herrors
  obtain rfl := (hunique [2, 3, 4, 3]).1 hnumbered
  obtain ⟨-, -, htargets, hbindings, -⟩ := hpaired hlt
  refine ⟨herrors, hnumbered, hlt, htargets.trans ?_, ?_⟩
  · rw [hbinds]
    rfl
  · rw [hbindings params, hbinds]
    rfl

end DataAccess.Statement
