/-!
Finite sets of names. Their elements are listed in ascending order of code points, each once, so two
sets with the same elements are equal.
-/

set_option autoImplicit false

namespace DataAccess

def insertSorted (n : String) : List String → List String
  | [] => [n]
  | m :: ms =>
    if n < m then n :: m :: ms else if n = m then m :: ms else m :: insertSorted n ms

theorem mem_insertSorted {x n : String} {ms : List String} :
    x ∈ insertSorted n ms ↔ x = n ∨ x ∈ ms := by
  induction ms with
  | nil => simp [insertSorted]
  | cons m ms ih => grind [insertSorted]

theorem pairwise_insertSorted {n : String} {ms : List String} (h : ms.Pairwise (· < ·)) :
    (insertSorted n ms).Pairwise (· < ·) := by
  induction ms with
  | nil => simp [insertSorted]
  | cons m ms ih =>
    have htail := List.pairwise_cons.1 h
    have := ih htail.2
    unfold insertSorted
    split
    · refine List.pairwise_cons.2 ⟨fun x hx => ?_, h⟩
      rcases List.mem_cons.1 hx with rfl | hx
      · assumption
      · exact String.lt_trans ‹n < m› (htail.1 x hx)
    · split
      · exact h
      · refine List.pairwise_cons.2 ⟨fun x hx => ?_, this⟩
        rcases mem_insertSorted.1 hx with rfl | hx
        · grind
        · exact htail.1 x hx

structure NameSet where
  toList : List String
  sorted : toList.Pairwise (· < ·)
deriving DecidableEq

namespace NameSet

def empty : NameSet := ⟨[], .nil⟩

def insert (s : NameSet) (n : String) : NameSet :=
  ⟨insertSorted n s.toList, pairwise_insertSorted s.sorted⟩

def ofList (names : List String) : NameSet := names.foldl insert empty

def union (s t : NameSet) : NameSet := t.toList.foldl insert s

def contains (s : NameSet) (n : String) : Bool := s.toList.contains n

def isEmpty (s : NameSet) : Bool := s.toList.isEmpty

def filter (s : NameSet) (p : String → Bool) : NameSet :=
  ⟨s.toList.filter p, s.sorted.filter _⟩

instance : Membership String NameSet := ⟨fun s n => n ∈ s.toList⟩

theorem mem_toList {n : String} {s : NameSet} : n ∈ s.toList ↔ n ∈ s := Iff.rfl

theorem mem_insert {x n : String} {s : NameSet} : x ∈ s.insert n ↔ x = n ∨ x ∈ s :=
  mem_insertSorted

theorem mem_foldl_insert {x : String} {names : List String} {s : NameSet} :
    x ∈ names.foldl insert s ↔ x ∈ s ∨ x ∈ names := by
  induction names generalizing s with
  | nil => simp
  | cons n names ih => simp only [List.foldl_cons, ih, mem_insert, List.mem_cons]; grind

theorem mem_ofList {x : String} {names : List String} : x ∈ ofList names ↔ x ∈ names := by
  rw [ofList, mem_foldl_insert]
  exact or_iff_right (List.not_mem_nil)

theorem mem_union {x : String} {s t : NameSet} : x ∈ s.union t ↔ x ∈ s ∨ x ∈ t :=
  mem_foldl_insert

end NameSet

end DataAccess
