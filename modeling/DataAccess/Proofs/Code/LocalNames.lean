import DataAccess.Code.Emit
import Mathlib.Data.List.Basic
import Mathlib.Data.List.Nodup
import Mathlib.Logic.Function.Basic

/-!
The names of the local variables of one method body. A repeated request is told apart by a number,
and numbers share the name space with what is asked for, so that all names differ exactly when no
body asks for a name and for a numbered form of it that is given as well.
-/

set_option autoImplicit false

namespace DataAccess.Code

open ClassMembers (numbered)

theorem isDigit_of_mem_toString {n : Nat} {c : Char} (h : c ∈ (toString n).toList) :
    c.isDigit = true := by
  rw [Nat.toString_eq_repr, Nat.toList_repr] at h
  exact Nat.isDigit_of_mem_toDigits (by decide) (by decide) h

theorem underscore_not_mem_toString (n : Nat) : '_' ∉ (toString n).toList :=
  fun h => absurd (isDigit_of_mem_toString h) (by decide)

theorem toString_nat_inj {m n : Nat} (h : toString m = toString n) : m = n := by
  have hd := congrArg String.toList h
  simp only [Nat.toString_eq_repr, Nat.toList_repr] at hd
  simpa using congrArg (fun ds => Nat.ofDigitChars 10 ds 0) hd

/-- What stands behind the last separator is determined by the whole. -/
theorem append_cons_inj_of_not_mem {c : Char} {xs ys ds es : List Char} (hd : c ∉ ds) (he : c ∉ es)
    (h : xs ++ c :: ds = ys ++ c :: es) : xs = ys ∧ ds = es := by
  rcases List.append_eq_append_iff.1 h with ⟨zs, rfl, hzs⟩ | ⟨zs, rfl, hzs⟩
  · cases zs with
    | nil => simp_all
    | cons z zs =>
      obtain ⟨rfl, hds⟩ := List.cons.inj hzs
      exact absurd (hds ▸ by simp) hd
  · cases zs with
    | nil => simp_all
    | cons z zs =>
      obtain ⟨rfl, hes⟩ := List.cons.inj hzs
      exact absurd (hes ▸ by simp) he

theorem numbered_pos {base : String} {n : Nat} (hn : 0 < n) :
    numbered base n = base ++ "_" ++ toString n := by
  cases n with
  | zero => omega
  | succ n => rfl

theorem toList_numbered_pos {base : String} {n : Nat} (hn : 0 < n) :
    (numbered base n).toList = base.toList ++ '_' :: (toString n).toList := by
  rw [numbered_pos hn]
  simp [String.toList_append]

theorem not_mem_numbered {c : Char} {base : String} (hbase : c ∉ base.toList) (hdash : c ≠ '_')
    (hdigit : c.isDigit = false) (n : Nat) : c ∉ (numbered base n).toList := by
  cases n with
  | zero => exact hbase
  | succ n =>
    rw [toList_numbered_pos n.succ_pos, List.mem_append, List.mem_cons]
    rintro (h | h | h)
    · exact hbase h
    · exact hdash h
    · simp [isDigit_of_mem_toString h] at hdigit

/-- Two numbered forms agree only when they are the same form, or when one of the names was asked
for as it is and spells a number of the other. -/
theorem numbered_eq_iff {b c : String} {m n : Nat} :
    numbered b m = numbered c n ↔
      (b = c ∧ m = n) ∨ (m = 0 ∧ 0 < n ∧ b = numbered c n) ∨
        (n = 0 ∧ 0 < m ∧ c = numbered b m) := by
  rcases Nat.eq_zero_or_pos m with rfl | hm <;> rcases Nat.eq_zero_or_pos n with rfl | hn
  · simp [numbered]
  · have : ¬0 = n := by omega
    simp [numbered, hn, this]
  · have : ¬m = 0 := by omega
    simp [numbered, hm, this, eq_comm]
  · constructor
    · intro h
      have hl := congrArg String.toList h
      rw [toList_numbered_pos hm, toList_numbered_pos hn] at hl
      obtain ⟨hb, hd⟩ := append_cons_inj_of_not_mem (underscore_not_mem_toString m)
        (underscore_not_mem_toString n) hl
      exact .inl ⟨String.toList_inj.1 hb, toString_nat_inj (String.toList_inj.1 hd)⟩
    · rintro (⟨rfl, rfl⟩ | ⟨rfl, -, -⟩ | ⟨rfl, -, -⟩)
      · rfl
      · omega
      · omega

namespace Emit

/-- The first form of the name that a request is given. -/
def localBase (wish : String) : String := "_" ++ trimUnderscores wish

/-- How often a name was asked for. -/
def asked (locals : List (String × Nat)) (base : String) : Nat := (locals.lookup base).getD 0

@[simp] theorem asked_nil : asked [] = fun _ => 0 := rfl

theorem asked_cons (d : String) (n : Nat) (locals : List (String × Nat)) (c : String) :
    asked ((d, n) :: locals) c = if c = d then n else asked locals c := by
  by_cases h : c = d
  · simp [asked, h]
  · have hbeq : (c == d) = false := by simp [h]
    simp [asked, List.lookup_cons, h, hbeq]

theorem asked_countRequest (locals : List (String × Nat)) (b c : String) :
    asked (countRequest b locals) c = asked locals c + if c = b then 1 else 0 := by
  induction locals with
  | nil => simp [countRequest, asked_cons]
  | cons entry locals ih =>
    obtain ⟨d, n⟩ := entry
    by_cases hd : d = b
    · subst hd
      by_cases hc : c = d <;> simp [countRequest, asked_cons, hc]
    · by_cases hc : c = d
      · subst hc
        simp [countRequest, asked_cons, hd]
      · simp [countRequest, asked_cons, hd, hc, ih]

theorem fresh_run (wish : String) (s : Scope) :
    (fresh wish).run s =
      (numbered (localBase wish) (asked s.locals (localBase wish)),
        { s with locals := countRequest (localBase wish) s.locals }) := by
  have hname : ∀ n, (if n = 0 then localBase wish else localBase wish ++ "_" ++ toString n) =
      numbered (localBase wish) n := by
    intro n
    cases n <;> rfl
  exact Prod.ext (hname _) rfl

/-- The names of local variables begin with an underscore. -/
theorem head?_fresh (wish : String) (s : Scope) :
    ((fresh wish).run s).1.toList.head? = some '_' := by
  have hnumbered : ∀ n, (numbered (localBase wish) n).toList.head? = some '_' := by
    rintro (_ | n)
    · simp [numbered, localBase]
    · simp [numbered, localBase]
  rw [fresh_run]
  exact hnumbered _

end Emit

/-- What the writing of a body asks of its scope: names, code, and both of a fork. -/
inductive Request where
  | name (wish : String)
  | code (edit : Block → Block)
  | fork (body : List Request)
  | forkAs (object : String) (body : List Request)

namespace Request

mutual

/-- Makes a request and returns the names that it is given. -/
def run : Request → Emit (List String)
  | name wish => return [← Emit.fresh wish]
  | code edit => do
    Emit.onBlock edit
    return []
  | fork body => return (← Emit.forkAs (← Emit.receiver) (runAll body)).1
  | forkAs object body => return (← Emit.forkAs object (runAll body)).1

def runAll : List Request → Emit (List String)
  | [] => return []
  | r :: rs => return (← r.run) ++ (← runAll rs)

end

mutual

/-- The names that are asked for, in order. -/
def bases : Request → List String
  | name wish => [Emit.localBase wish]
  | code _ => []
  | fork body | forkAs _ body => basesAll body

def basesAll : List Request → List String
  | [] => []
  | r :: rs => r.bases ++ basesAll rs

end

/-- The names of a new scope's requests. -/
def names (s : Scope) (rs : List Request) : List String :=
  ((runAll rs).run { s with locals := [] }).1

end Request

/-- One more request for a name. -/
def askedOnce (count : String → Nat) (b : String) : String → Nat :=
  fun c => count c + if c = b then 1 else 0

/-- The numbered forms of names asked for in order, `count` of each having been given before. -/
def numbering (count : String → Nat) : List String → List String
  | [] => []
  | b :: bs => numbered b (count b) :: numbering (askedOnce count b) bs

theorem numbering_append (count : String → Nat) (bs cs : List String) :
    numbering count (bs ++ cs) =
      numbering count bs ++ numbering (fun c => count c + bs.count c) cs := by
  induction bs generalizing count with
  | nil => simp [numbering]
  | cons b bs ih =>
    have hcount : (fun c => askedOnce count b c + bs.count c) =
        fun c => count c + (b :: bs).count c := by
      funext c
      simp only [askedOnce, List.count_cons, beq_iff_eq, eq_comm (a := b)]
      omega
    simp only [List.cons_append, numbering, ih, hcount]

/-- Whether a numbered form is among those that are given. -/
def Given (count : String → Nat) (bs : List String) (b : String) (n : Nat) : Prop :=
  count b ≤ n ∧ n < count b + bs.count b

theorem given_cons {count : String → Nat} {b c : String} {bs : List String} {n : Nat} :
    Given count (b :: bs) c n ↔ (c = b ∧ n = count b) ∨ Given (askedOnce count b) bs c n := by
  simp only [Given, askedOnce, List.count_cons, beq_iff_eq, eq_comm (a := b)]
  by_cases h : c = b
  · subst h
    simp only [if_true, true_and]
    omega
  · simp [h]

theorem not_given_askedOnce (count : String → Nat) (b : String) (bs : List String) :
    ¬Given (askedOnce count b) bs b (count b) := by
  intro h
  have := h.1
  simp only [askedOnce, if_true] at this
  omega

theorem mem_numbering {x : String} {count : String → Nat} {bs : List String} :
    x ∈ numbering count bs ↔ ∃ b n, Given count bs b n ∧ x = numbered b n := by
  induction bs generalizing count with
  | nil =>
    simp only [numbering, List.not_mem_nil, Given, List.count_nil, false_iff]
    rintro ⟨b, n, h, -⟩
    omega
  | cons b bs ih =>
    rw [numbering, List.mem_cons, ih]
    constructor
    · rintro (rfl | ⟨c, n, h, rfl⟩)
      · exact ⟨b, count b, given_cons.2 (.inl ⟨rfl, rfl⟩), rfl⟩
      · exact ⟨c, n, given_cons.2 (.inr h), rfl⟩
    · rintro ⟨c, n, h, rfl⟩
      rcases given_cons.1 h with ⟨rfl, rfl⟩ | h
      · exact .inl rfl
      · exact .inr ⟨c, n, h, rfl⟩

theorem nodup_numbering {count : String → Nat} {bs : List String} :
    (numbering count bs).Nodup ↔
      ∀ b m c n, Given count bs b m → Given count bs c n → numbered b m = numbered c n →
        b = c ∧ m = n := by
  induction bs generalizing count with
  | nil =>
    simp only [numbering, List.nodup_nil, Given, List.count_nil, true_iff]
    intros
    omega
  | cons b bs ih =>
    rw [numbering, List.nodup_cons, ih, mem_numbering]
    constructor
    · rintro ⟨hhead, htail⟩ c m d n hc hd heq
      rcases given_cons.1 hc with ⟨rfl, rfl⟩ | hc <;> rcases given_cons.1 hd with ⟨rfl, rfl⟩ | hd
      · exact ⟨rfl, rfl⟩
      · exact absurd ⟨d, n, hd, heq⟩ hhead
      · exact absurd ⟨c, m, hc, heq.symm⟩ hhead
      · exact htail c m d n hc hd heq
    · intro h
      refine ⟨?_, fun c m d n hc hd => h c m d n (given_cons.2 (.inr hc)) (given_cons.2 (.inr hd))⟩
      rintro ⟨c, n, hc, heq⟩
      obtain ⟨rfl, rfl⟩ := h b (count b) c n (given_cons.2 (.inl ⟨rfl, rfl⟩))
        (given_cons.2 (.inr hc)) heq
      exact not_given_askedOnce count b bs hc

namespace Request

open Emit (asked)

mutual

/-- A request is given the next numbered forms, and what it gives out counts as asked for after it,
inside a fork or not. -/
theorem run_spec (r : Request) (s : Scope) :
    (r.run.run s).1 = numbering (asked s.locals) r.bases ∧
      asked (r.run.run s).2.locals = fun c => asked s.locals c + r.bases.count c := by
  cases r with
  | name wish =>
    have hrun : (name wish).run.run s =
        ([((Emit.fresh wish).run s).1], ((Emit.fresh wish).run s).2) := rfl
    rw [hrun, Emit.fresh_run]
    refine ⟨rfl, funext fun c => ?_⟩
    rw [Emit.asked_countRequest, bases, List.count_singleton]
    simp only [beq_iff_eq, eq_comm (a := c)]
  | code edit => exact ⟨rfl, rfl⟩
  | fork body => exact runAll_spec body { s with block := {} }
  | forkAs object body => exact runAll_spec body { s with block := {}, receiver := object }

theorem runAll_spec (rs : List Request) (s : Scope) :
    ((runAll rs).run s).1 = numbering (asked s.locals) (basesAll rs) ∧
      asked ((runAll rs).run s).2.locals = fun c => asked s.locals c + (basesAll rs).count c := by
  cases rs with
  | nil => exact ⟨rfl, rfl⟩
  | cons r rs =>
    obtain ⟨hname, hcount⟩ := run_spec r s
    obtain ⟨hnames, hcounts⟩ := runAll_spec rs (r.run.run s).2
    have hrun : (runAll (r :: rs)).run s =
        ((r.run.run s).1 ++ ((runAll rs).run (r.run.run s).2).1,
          ((runAll rs).run (r.run.run s).2).2) := rfl
    rw [hrun, basesAll]
    constructor
    · rw [numbering_append, hname, hnames, hcount]
    · simp only [hcounts, hcount, List.count_append, Nat.add_assoc]

end

/-- The names that a body asks for differ exactly when no name is asked for that is a numbered form
given to the requests for another one. -/
theorem nodup_names_iff (s : Scope) (rs : List Request) :
    (names s rs).Nodup ↔
      ∀ base n, 0 < n → n < (basesAll rs).count base → numbered base n ∉ basesAll rs := by
  have hgiven : ∀ b n, Given (fun _ => 0) (basesAll rs) b n ↔ n < (basesAll rs).count b := by
    simp [Given]
  rw [names, (runAll_spec rs _).1, Emit.asked_nil, nodup_numbering]
  simp only [hgiven]
  constructor
  · intro h base n hn hlt hmem
    have := h (numbered base n) 0 base n (List.count_pos_iff.2 hmem) hlt rfl
    omega
  · intro h b m c n hb hc heq
    rcases numbered_eq_iff.1 heq with heq | ⟨rfl, hn, rfl⟩ | ⟨rfl, hm, rfl⟩
    · exact heq
    · exact absurd (List.count_pos_iff.1 hb) (h c n hn hc)
    · exact absurd (List.count_pos_iff.1 hc) (h b m hm hb)

/-- Two requests for a key and one for its first numbered form are given only two names. -/
example : names { members := { className := "Dao" } }
    [.name "tmp_key", .fork [.name "tmp_key"], .name "tmp_key_1"] =
      ["_tmp_key", "_tmp_key_1", "_tmp_key_1"] := by decide

end Request

end DataAccess.Code
