import DataAccess.Compile.Plugin
import DataAccess.Proofs.Delivery.ClaimedTypes

/-!
The order in which providers are asked. However registrations follow one another, built in or by
plugins, a chain of providers is the stable sort of what was registered: by priority, and within a
priority by registration. A type is delivered by the first provider of the chain that claims it, and
at once when none does.
-/

set_option autoImplicit false

namespace DataAccess

section Ranks

variable {α : Type} {rank : α → Nat} {entries sorted : List α}

/-- The second list is the stable sort of the first: it has the same entries, their ranks ascend, and
those of one rank stand as they were. -/
structure IsStableSort (rank : α → Nat) (entries sorted : List α) : Prop where
  perm : sorted.Perm entries
  ascending : sorted.Pairwise (rank · ≤ rank ·)
  stable : ∀ n, sorted.filter (rank · = n) = entries.filter (rank · = n)

/-- Behind the first entry of a greater rank there are only such entries. -/
theorem lt_of_mem_dropWhile {n : Nat} (h : sorted.Pairwise (rank · ≤ rank ·)) {b : α}
    (hb : b ∈ sorted.dropWhile (rank · ≤ n)) : n < rank b := by
  induction sorted with
  | nil => cases hb
  | cons a sorted ih =>
    obtain ⟨ha, hsorted⟩ := List.pairwise_cons.1 h
    by_cases han : rank a ≤ n
    · rw [List.dropWhile_cons_of_pos (by simpa using han)] at hb
      exact ih hsorted hb
    · rw [List.dropWhile_cons_of_neg (by simpa using han)] at hb
      obtain rfl | hb := List.mem_cons.1 hb
      · exact Nat.lt_of_not_le han
      · exact Nat.lt_of_lt_of_le (Nat.lt_of_not_le han) (ha b hb)

theorem le_of_mem_takeWhile {n : Nat} {b : α} (hb : b ∈ sorted.takeWhile (rank · ≤ n)) :
    rank b ≤ n := by
  simpa using List.all_eq_true.1 List.all_takeWhile b hb

/-- One more entry is inserted behind those of its rank. -/
theorem IsStableSort.insert (h : IsStableSort rank entries sorted) (a : α) :
    IsStableSort rank (entries ++ [a]) (Delivery.insertByRank rank a sorted) where
  perm := by
    have hmiddle : (Delivery.insertByRank rank a sorted).Perm (a :: (sorted.takeWhile
        (rank · ≤ rank a) ++ sorted.dropWhile (rank · ≤ rank a))) := List.perm_middle
    rw [List.takeWhile_append_dropWhile] at hmiddle
    exact hmiddle.trans ((h.perm.cons a).trans (List.perm_append_singleton a entries).symm)
  ascending := by
    have hparts : (sorted.takeWhile (rank · ≤ rank a) ++
        sorted.dropWhile (rank · ≤ rank a)).Pairwise (rank · ≤ rank ·) := by
      rw [List.takeWhile_append_dropWhile]
      exact h.ascending
    obtain ⟨hbefore, hafter, hboth⟩ := List.pairwise_append.1 hparts
    have hlarger : ∀ b ∈ sorted.dropWhile (rank · ≤ rank a), rank a ≤ rank b :=
      fun b hb => (lt_of_mem_dropWhile h.ascending hb).le
    refine List.pairwise_append.2 ⟨hbefore, List.pairwise_cons.2 ⟨hlarger, hafter⟩, ?_⟩
    intro b hb c hc
    obtain rfl | hc := List.mem_cons.1 hc
    · exact le_of_mem_takeWhile hb
    · exact hboth b hb c hc
  stable n := by
    have hparts : (sorted.takeWhile (rank · ≤ rank a)).filter (rank · = n) ++
        (sorted.dropWhile (rank · ≤ rank a)).filter (rank · = n) = entries.filter (rank · = n) := by
      rw [← List.filter_append, List.takeWhile_append_dropWhile, h.stable]
    rw [Delivery.insertByRank, List.filter_append, List.filter_append, ← hparts]
    by_cases ha : rank a = n
    · have hnone : (sorted.dropWhile (rank · ≤ rank a)).filter (rank · = n) = [] :=
        List.filter_eq_nil_iff.2 fun b hb => by
          have := lt_of_mem_dropWhile h.ascending hb
          simp only [decide_eq_true_eq]
          omega
      rw [hnone, List.filter_cons_of_pos (by simpa using ha), List.append_nil,
        List.filter_cons_of_pos (by simpa using ha), hnone]
      simp
    · simp [ha]

end Ranks

namespace Delivery

/-- A provider is registered for what is read or for what is written. -/
inductive Registration where
  | read (p : ReadProvider)
  | write (p : WriteProvider)

namespace Registration

def read? : Registration → Option ReadProvider
  | read p => some p
  | write _ => none

def write? : Registration → Option WriteProvider
  | read _ => none
  | write p => some p

def apply (providers : Providers) : Registration → Providers
  | read p => providers.registerRead p
  | write p => providers.registerWrite p

/-- The registrations of the built-in providers. -/
def builtIn : List Registration := ReadProvider.builtIn.map read ++ WriteProvider.builtIn.map write

end Registration

namespace Providers

/-- Both chains are the stable sorts of what was registered for them. -/
structure Follows (providers : Providers) (registrations : List Registration) : Prop where
  reads : IsStableSort ReadProvider.priority (registrations.filterMap Registration.read?)
    providers.reads
  writes : IsStableSort WriteProvider.priority (registrations.filterMap Registration.write?)
    providers.writes

/-- One more registration. -/
theorem Follows.apply {providers : Providers} {registrations : List Registration}
    (h : providers.Follows registrations) (r : Registration) :
    (r.apply providers).Follows (registrations ++ [r]) := by
  cases r with
  | read p =>
    refine ⟨?_, ?_⟩ <;> rw [List.filterMap_append]
    · exact h.reads.insert p
    · exact (List.append_nil _).symm ▸ h.writes
  | write p =>
    refine ⟨?_, ?_⟩ <;> rw [List.filterMap_append]
    · exact (List.append_nil _).symm ▸ h.reads
    · exact h.writes.insert p

end Providers

end Delivery

namespace Compile

open Delivery

/-- What a plugin registers. -/
def Plugin.registrations (p : Plugin) : List Registration :=
  p.reads.map (.read <| .custom ·) ++ p.writes.map (.write <| .custom ·)

end Compile

end DataAccess
