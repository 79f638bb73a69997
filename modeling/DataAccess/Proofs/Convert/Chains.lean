import DataAccess.Convert.Store
import Mathlib.Data.List.FinRange
import Mathlib.Data.List.Shortlex

/-!
The search for a chain of converters. Chains are ordered by the places of their steps among all
single steps: a shorter chain comes first, and of two that are equally long the one whose places are
lexicographically smaller. The search finds the first chain of this order that leads from a source to
an accepted type outside of them (`search_eq_some_iff`). A round of it knows which types are reached
in fewer steps, so what it leaves out is reached by a shorter chain already.
-/

set_option autoImplicit false

namespace DataAccess.Convert

open Schema

namespace Converter

/-- Each step of a chain starts with the type that the step before it ends with. -/
def Joined : Converter → Prop
  | nullSafe inner => inner.Joined
  | chain first second => first.Joined ∧ second.Joined ∧ first.target = second.source
  | _ => True

end Converter

section Order

variable {n : Nat}

theorem lex_append {p q : List (Fin n)} (h : List.Lex (· < ·) p q) (hlength : p.length = q.length)
    (s t : List (Fin n)) : List.Lex (· < ·) (p ++ s) (q ++ t) := by
  induction h with
  | nil => simp at hlength
  | cons _ ih => exact .cons (ih (Nat.succ.inj hlength))
  | rel hlt => exact .rel hlt

end Order

section Chains

variable (edges : List Converter) (sources : List TypeExpr)

/-- A chain with the places of its steps. It starts with one of the sources, and each further step
starts where the one before it ends. -/
inductive ChainAt : List (Fin edges.length) → Converter → Prop
  | start {i : Fin edges.length} (h : edges[i].source ∈ sources) : ChainAt [i] edges[i]
  | step {p : List (Fin edges.length)} {c : Converter} {i : Fin edges.length} (hc : ChainAt p c)
      (h : edges[i].source = c.target) : ChainAt (p ++ [i]) (c.chain edges[i])

/-- A chain to an accepted type that is not a source. -/
structure RouteAt (accepts : TypeExpr → Bool) (p : List (Fin edges.length)) (c : Converter) :
    Prop where
  chain : ChainAt edges sources p c
  accepted : accepts c.target = true
  outside : c.target ∉ sources

/-- The first of all such chains: a shortest one, and of those the lexicographically first. -/
structure FirstAt (accepts : TypeExpr → Bool) (p : List (Fin edges.length)) (c : Converter) :
    Prop where
  route : RouteAt edges sources accepts p c
  least : ∀ q d, RouteAt edges sources accepts q d → q = p ∨ List.Shortlex (· < ·) p q

/-- A type that is a source or the end of a chain of at most `n` steps. -/
def Reached (n : Nat) (t : TypeExpr) : Prop :=
  t ∈ sources ∨ ∃ p c, ChainAt edges sources p c ∧ p.length ≤ n ∧ c.target = t

variable {edges sources} {accepts : TypeExpr → Bool} {p q : List (Fin edges.length)}
  {c d : Converter} {n : Nat} {t : TypeExpr}

theorem chainAt_concat {i : Fin edges.length} :
    ChainAt edges sources (p ++ [i]) c ↔
      (p = [] ∧ edges[i].source ∈ sources ∧ c = edges[i]) ∨
      ∃ b, ChainAt edges sources p b ∧ edges[i].source = b.target ∧ c = b.chain edges[i] := by
  constructor
  · intro h
    generalize hplaces : p ++ [i] = places at h
    cases h with
    | @start j hsource =>
      have hplaces : p ++ [i] = [] ++ [j] := hplaces
      obtain ⟨rfl, hlast⟩ := List.append_inj' hplaces rfl
      obtain rfl := List.singleton_inj.1 hlast
      exact .inl ⟨rfl, hsource, rfl⟩
    | @step q b j hb hsource =>
      obtain ⟨rfl, hlast⟩ := List.append_inj' hplaces rfl
      obtain rfl := List.singleton_inj.1 hlast
      exact .inr ⟨b, hb, hsource, rfl⟩
  · rintro (⟨rfl, hsource, rfl⟩ | ⟨b, hb, hsource, rfl⟩)
    · exact .start hsource
    · exact .step hb hsource

namespace ChainAt

theorem ne_nil (h : ChainAt edges sources p c) : p ≠ [] := by
  cases h <;> simp

theorem source_mem (h : ChainAt edges sources p c) : c.source ∈ sources := by
  induction h with
  | start hsource => exact hsource
  | step _ _ ih => exact ih

theorem unique (h : ChainAt edges sources p c) (h' : ChainAt edges sources p d) : c = d := by
  induction h generalizing d with
  | start hsource =>
    rcases (chainAt_concat (p := [])).1 h' with ⟨-, -, rfl⟩ | ⟨b, hb, -⟩
    · rfl
    · exact absurd rfl hb.ne_nil
  | step hc _ ih =>
    rcases chainAt_concat.1 h' with ⟨rfl, -⟩ | ⟨b, hb, -, rfl⟩
    · exact absurd rfl hc.ne_nil
    · rw [ih hb]

theorem joined (hedges : ∀ e ∈ edges, e.Joined) (h : ChainAt edges sources p c) : c.Joined := by
  induction h with
  | start => exact hedges _ (List.getElem_mem _)
  | step _ hsource ih => exact ⟨ih, hedges _ (List.getElem_mem _), hsource.symm⟩

theorem hops_eq (hedges : ∀ e ∈ edges, e.hops = 1) (h : ChainAt edges sources p c) :
    c.hops = p.length := by
  induction h with
  | start => exact hedges _ (List.getElem_mem _)
  | @step p c i _ _ ih =>
    have hstep : edges[i].hops = 1 := hedges _ (List.getElem_mem _)
    rw [Converter.hops, ih, hstep, List.length_append, List.length_singleton]

theorem reached (h : ChainAt edges sources p c) (hlength : p.length ≤ n) :
    Reached edges sources n c.target := .inr ⟨p, c, h, hlength, rfl⟩

end ChainAt

theorem Reached.mono {m : Nat} (h : Reached edges sources n t) (hle : n ≤ m) :
    Reached edges sources m t := by
  rcases h with h | ⟨p, c, hc, hlength, rfl⟩
  · exact .inl h
  · exact hc.reached (Nat.le_trans hlength hle)

theorem Reached.step {i : Fin edges.length} (h : Reached edges sources n edges[i].source) :
    Reached edges sources (n + 1) edges[i].target := by
  rcases h with h | ⟨p, c, hc, hlength, htarget⟩
  · exact (ChainAt.start h).reached (by simp)
  · exact (ChainAt.step hc htarget.symm).reached (by simpa using hlength)

theorem FirstAt.unique (h : FirstAt edges sources accepts p c)
    (h' : FirstAt edges sources accepts q d) : c = d := by
  have hplaces : q = p := by
    rcases h.least q d h'.route with hq | hlt
    · exact hq
    · rcases h'.least p c h.route with hp | hgt
      · exact hp.symm
      · exact absurd hgt (Std.Asymm.asymm _ _ hlt)
  subst hplaces
  exact h.route.chain.unique h'.route.chain

theorem RouteAt.exists_first (h : RouteAt edges sources accepts p c) :
    ∃ q d, FirstAt edges sources accepts q d ∧ q.length ≤ p.length := by
  have hwf : WellFounded (List.Shortlex (α := Fin edges.length) (· < ·)) :=
    List.Shortlex.wf wellFounded_lt
  let routes : Set (List (Fin edges.length)) := { q | ∃ d, RouteAt edges sources accepts q d }
  -- Shorter lists come first and there are finitely many of each length, so one of them is least.
  obtain ⟨q, ⟨d, hd⟩, hleast⟩ := hwf.has_min routes ⟨p, c, h⟩
  have hfirst : ∀ r e, RouteAt edges sources accepts r e → r = q ∨ List.Shortlex (· < ·) q r := by
    intro r e he
    by_cases hrq : r = q
    · exact .inl hrq
    · refine .inr (Classical.not_not.1 fun hqr => hrq ?_)
      exact Std.Trichotomous.trichotomous r q (hleast r ⟨e, he⟩) hqr
  refine ⟨q, d, ⟨hd, hfirst⟩, ?_⟩
  rcases hfirst p c h with rfl | hlt
  · exact Nat.le_refl _
  · rcases List.shortlex_def.1 hlt with hlt | ⟨heq, -⟩
    · exact Nat.le_of_lt hlt
    · exact Nat.le_of_eq heq

variable (edges) in
/-- The chains of a round one step further, with their places. -/
def extendAt (visited : List TypeExpr) (found : List (List (Fin edges.length) × Converter)) :
    List (List (Fin edges.length) × Converter) :=
  found.flatMap fun (p, c) =>
    ((List.finRange edges.length).filter fun i =>
      edges[i].source = c.target && !visited.contains edges[i].target).map fun i =>
        (p ++ [i], c.chain edges[i])

theorem map_filter_finRange (keep : Converter → Bool) :
    ((List.finRange edges.length).filter fun i => keep edges[i]).map (edges[·]) =
      edges.filter keep := by
  have h := congrArg (List.filter keep) (List.map_getElem_finRange edges)
  rw [List.filter_map] at h
  exact h

theorem map_snd_extendAt (visited : List TypeExpr)
    (found : List (List (Fin edges.length) × Converter)) :
    (extendAt edges visited found).map Prod.snd = extend edges visited (found.map Prod.snd) := by
  rw [extendAt, extend, List.map_flatMap, List.flatMap_map]
  refine congrArg (List.flatMap · found) (funext fun (p, c) => ?_)
  rw [← map_filter_finRange, List.map_map, List.map_map]
  rfl

theorem mem_extendAt {visited : List TypeExpr}
    {found : List (List (Fin edges.length) × Converter)} :
    (p, c) ∈ extendAt edges visited found ↔
      ∃ q b i, (q, b) ∈ found ∧ edges[i].source = b.target ∧ edges[i].target ∉ visited ∧
        p = q ++ [i] ∧ c = b.chain edges[i] := by
  simp only [extendAt, List.mem_flatMap, List.mem_map, List.mem_filter, Prod.exists]
  constructor
  · rintro ⟨q, b, hfound, i, ⟨-, hkeep⟩, heq⟩
    obtain ⟨rfl, rfl⟩ := Prod.mk.inj heq
    simp only [Bool.and_eq_true, decide_eq_true_eq, Bool.not_eq_true', List.contains_eq_mem,
      decide_eq_false_iff_not] at hkeep
    exact ⟨q, b, i, hfound, hkeep.1, hkeep.2, rfl, rfl⟩
  · rintro ⟨q, b, i, hfound, hsource, hnew, rfl, rfl⟩
    exact ⟨q, b, hfound, i, ⟨List.mem_finRange i, by simpa using ⟨hsource, hnew⟩⟩, rfl⟩

variable (edges sources) in
/-- What a round of the search starts from. The types that were visited are those reached in `n`
steps, and the chains found are all those that first reach a type after one step more. -/
structure Round (n : Nat) (visited : List TypeExpr)
    (found : List (List (Fin edges.length) × Converter)) : Prop where
  visited_iff : ∀ t, t ∈ visited ↔ Reached edges sources n t
  found_iff : ∀ p c, (p, c) ∈ found ↔
    ChainAt edges sources p c ∧ p.length = n + 1 ∧ ¬Reached edges sources n c.target
  sorted : found.Pairwise fun x y => List.Lex (· < ·) x.1 y.1

variable (edges sources) in
def startAt : List (List (Fin edges.length) × Converter) :=
  ((List.finRange edges.length).filter fun i =>
    sources.contains edges[i].source && !sources.contains edges[i].target).map fun i =>
      ([i], edges[i])

theorem map_snd_startAt :
    (startAt edges sources).map Prod.snd =
      edges.filter fun e => sources.contains e.source && !sources.contains e.target := by
  rw [startAt, List.map_map, ← map_filter_finRange]
  rfl

theorem reached_zero : Reached edges sources 0 t ↔ t ∈ sources := by
  refine ⟨fun h => ?_, .inl⟩
  rcases h with h | ⟨p, c, hc, hlength, -⟩
  · exact h
  · exact absurd (List.eq_nil_of_length_eq_zero (Nat.le_zero.1 hlength)) hc.ne_nil

theorem pairwise_finRange_filter (keep : Fin edges.length → Bool) :
    ((List.finRange edges.length).filter keep).Pairwise (· < ·) :=
  List.Pairwise.filter _ (List.pairwise_lt_finRange _)

theorem round_start : Round edges sources 0 sources (startAt edges sources) where
  visited_iff t := reached_zero.symm
  found_iff p c := by
    simp only [startAt, List.mem_map, List.mem_filter, reached_zero]
    constructor
    · rintro ⟨i, ⟨-, hkeep⟩, heq⟩
      obtain ⟨rfl, rfl⟩ := Prod.mk.inj heq
      have hkeep : edges[i].source ∈ sources ∧ edges[i].target ∉ sources := by simpa using hkeep
      exact ⟨.start hkeep.1, rfl, hkeep.2⟩
    · rintro ⟨hc, hlength, htarget⟩
      obtain ⟨i, rfl⟩ := List.length_eq_one_iff.1 hlength
      rcases (chainAt_concat (p := [])).1 hc with ⟨-, hsource, rfl⟩ | ⟨b, hb, -⟩
      · exact ⟨i, ⟨List.mem_finRange i, by simpa using ⟨hsource, htarget⟩⟩, rfl⟩
      · exact absurd rfl hb.ne_nil
  sorted := by
    rw [startAt, List.pairwise_map]
    exact (pairwise_finRange_filter _).imp fun h => List.Lex.rel h

namespace Round

variable {visited : List TypeExpr} {found : List (List (Fin edges.length) × Converter)}

theorem reached_succ (h : Round edges sources n visited found) :
    Reached edges sources (n + 1) t ↔
      t ∈ found.map (·.2.target) ∨ Reached edges sources n t := by
  constructor
  · intro ht
    by_cases hbefore : Reached edges sources n t
    · exact .inr hbefore
    rcases ht with ht | ⟨p, c, hc, hlength, rfl⟩
    · exact .inr (.inl ht)
    · have hlonger : ¬p.length ≤ n := fun hle => hbefore (hc.reached hle)
      have hfound := (h.found_iff p c).2 ⟨hc, by omega, hbefore⟩
      exact .inl (List.mem_map.2 ⟨(p, c), hfound, rfl⟩)
  · rintro (ht | ht)
    · obtain ⟨⟨p, c⟩, hfound, rfl⟩ := List.mem_map.1 ht
      obtain ⟨hc, hlength, -⟩ := (h.found_iff p c).1 hfound
      exact hc.reached (Nat.le_of_eq hlength)
    · exact ht.mono (Nat.le_succ n)

theorem next (h : Round edges sources n visited found) :
    Round edges sources (n + 1) (found.map (·.2.target) ++ visited)
      (extendAt edges (found.map (·.2.target) ++ visited) found) where
  visited_iff t := by rw [List.mem_append, h.visited_iff, h.reached_succ]
  found_iff p c := by
    have hvisited : ∀ t, t ∉ found.map (·.2.target) ++ visited ↔ ¬Reached edges sources (n + 1) t := by
      intro t
      rw [List.mem_append, h.visited_iff, h.reached_succ]
    simp only [mem_extendAt, hvisited]
    constructor
    · rintro ⟨q, b, i, hfound, hsource, hnew, rfl, rfl⟩
      obtain ⟨hb, hlength, -⟩ := (h.found_iff q b).1 hfound
      exact ⟨.step hb hsource, by simp [hlength], hnew⟩
    · rintro ⟨hc, hlength, hnew⟩
      obtain ⟨q, i, rfl⟩ := List.eq_nil_or_concat p |>.resolve_left hc.ne_nil
      rw [List.concat_eq_append] at *
      have hq : q.length = n + 1 := by simpa using hlength
      rcases chainAt_concat.1 hc with ⟨rfl, -⟩ | ⟨b, hb, hsource, rfl⟩
      · simp at hq
      -- Had a shorter chain reached the end of `b`, one step more would reach the end of the chain.
      have hend : ¬Reached edges sources n b.target := fun hreached => by
        rw [← hsource] at hreached
        exact hnew hreached.step
      exact ⟨q, b, i, (h.found_iff q b).2 ⟨hb, hq, hend⟩, hsource, hnew, rfl, rfl⟩
  sorted := by
    rw [extendAt, List.pairwise_flatMap]
    constructor
    · rintro ⟨p, c⟩ -
      rw [List.pairwise_map]
      exact (pairwise_finRange_filter _).imp fun hlt => List.Lex.append_left _ (.rel hlt) p
    · refine h.sorted.imp_of_mem fun {x y} hx hy hlex => ?_
      have hlength : x.1.length = y.1.length :=
        ((h.found_iff x.1 x.2).1 hx).2.1.trans ((h.found_iff y.1 y.2).1 hy).2.1.symm
      rintro a ha b hb
      obtain ⟨i, -, rfl⟩ := List.mem_map.1 ha
      obtain ⟨j, -, rfl⟩ := List.mem_map.1 hb
      exact lex_append hlex hlength [i] [j]

end Round

theorem searchFrom_nil (rounds : Nat) (visited : List TypeExpr) :
    searchFrom edges accepts rounds visited [] = none := by
  cases rounds <;> rfl

/-- A round without an accepted chain leaves the search to the next one. -/
theorem searchFrom_succ {rounds : Nat} {visited : List TypeExpr} {frontier : List Converter}
    (h : frontier.find? (accepts ·.target) = none) :
    searchFrom edges accepts (rounds + 1) visited frontier =
      searchFrom edges accepts rounds (frontier.map Converter.target ++ visited)
        (extend edges (frontier.map Converter.target ++ visited) frontier) := by
  rw [searchFrom, h]
  dsimp only
  split
  · rename_i hempty
    rw [List.isEmpty_iff.1 hempty, searchFrom_nil]
  · rfl

/-- The first accepted chain of a round is the first of all, when no round before had one. -/
theorem Round.firstAt {visited : List TypeExpr}
    {found : List (List (Fin edges.length) × Converter)} (h : Round edges sources n visited found)
    (hnone : ∀ t, Reached edges sources n t → accepts t = true → t ∈ sources)
    (hfind : found.find? (accepts ·.2.target) = some (p, c)) :
    FirstAt edges sources accepts p c ∧ p.length = n + 1 := by
  obtain ⟨haccepted, before, after, rfl, hbefore⟩ := List.find?_eq_some_iff_append.1 hfind
  obtain ⟨hc, hlength, hnew⟩ := (h.found_iff p c).1 (by simp)
  have houtside : ∀ {q d}, RouteAt edges sources accepts q d → ¬Reached edges sources n d.target :=
    fun hd hreached => hd.outside (hnone _ hreached hd.accepted)
  refine ⟨⟨⟨hc, haccepted, fun hsource => hnew (.inl hsource)⟩, fun q d hd => ?_⟩, hlength⟩
  -- A rival is longer than all chains of earlier rounds, whose accepted ends are sources.
  have hlonger : ¬q.length ≤ n := fun hle => houtside hd (hd.chain.reached hle)
  by_cases hq : q.length = n + 1
  · have hfound := (h.found_iff q d).2 ⟨hd.chain, hq, houtside hd⟩
    rcases List.mem_append.1 hfound with hmem | hmem
    · exact absurd hd.accepted (by simpa using hbefore (q, d) hmem)
    · rcases List.mem_cons.1 hmem with heq | hmem
      · exact .inl (Prod.mk.inj heq).1
      · have hsorted := (List.pairwise_append.1 h.sorted).2.1
        have hlex := (List.pairwise_cons.1 hsorted).1 (q, d) hmem
        exact .inr (.of_lex (hlength.trans hq.symm) hlex)
  · exact .inr (.of_length_lt (by omega))

theorem searchFrom_eq_some_iff {visited : List TypeExpr}
    {found : List (List (Fin edges.length) × Converter)} (rounds : Nat)
    (h : Round edges sources n visited found)
    (hnone : ∀ t, Reached edges sources n t → accepts t = true → t ∈ sources) :
    searchFrom edges accepts rounds visited (found.map Prod.snd) = some c ↔
      ∃ p, FirstAt edges sources accepts p c ∧ p.length ≤ n + rounds := by
  induction rounds generalizing n visited found with
  | zero =>
    simp only [searchFrom, Nat.add_zero, reduceCtorEq, false_iff, not_exists, not_and]
    intro p hp hlength
    exact hp.route.outside (hnone _ (hp.route.chain.reached hlength) hp.route.accepted)
  | succ rounds ih =>
    have hmap : (found.map Prod.snd).find? (accepts ·.target) =
        (found.find? (accepts ·.2.target)).map Prod.snd := List.find?_map ..
    cases hfind : found.find? (accepts ·.2.target) with
    | some x =>
      obtain ⟨p, d⟩ := x
      obtain ⟨hfirst, hlength⟩ := h.firstAt hnone hfind
      rw [searchFrom, hmap, hfind]
      simp only [Option.map_some, Option.some.injEq]
      constructor
      · rintro rfl
        exact ⟨p, hfirst, by omega⟩
      · rintro ⟨q, hq, -⟩
        exact hfirst.unique hq
    | none =>
      rw [hfind, Option.map_none] at hmap
      have hnext : ∀ t, Reached edges sources (n + 1) t → accepts t = true → t ∈ sources := by
        intro t ht haccepted
        rcases h.reached_succ.1 ht with hmem | hbefore
        · obtain ⟨x, hx, rfl⟩ := List.mem_map.1 hmem
          exact absurd haccepted (List.find?_eq_none.1 hfind x hx)
        · exact hnone t hbefore haccepted
      have htargets : (found.map Prod.snd).map Converter.target = found.map (·.2.target) := by
        rw [List.map_map]
        rfl
      rw [searchFrom_succ hmap, htargets, ← map_snd_extendAt, ih h.next hnext]
      rw [Nat.add_right_comm, Nat.add_assoc]

end Chains

namespace Store

variable (s : Store) (sources : List TypeExpr) (accepts : TypeExpr → Bool)

theorem edges_cases {e : Converter} (h : e ∈ s.edges) :
    (∃ m ∈ s.custom, e = .custom m ∨ e = .nullSafe (.custom m)) ∨
      e ∈ [Converter.boolToInt, .intToBool, .optionBoolToInt, .optionIntToBool] := by
  simp only [edges, List.mem_append, List.mem_filterMap, List.mem_map] at h
  rcases h with (⟨m, hm, rfl⟩ | ⟨c, ⟨m, hm, rfl⟩, hlift⟩) | h
  · exact .inl ⟨m, hm, .inl rfl⟩
  · unfold Converter.lift? at hlift
    split at hlift
    · cases hlift
    · exact .inl ⟨m, hm, .inr (Option.some.inj hlift).symm⟩
  · exact .inr h

theorem joined_of_mem_edges : ∀ e ∈ s.edges, e.Joined := by
  intro e he
  rcases s.edges_cases he with ⟨m, -, rfl | rfl⟩ | he
  · trivial
  · trivial
  · simp only [List.mem_cons, List.not_mem_nil, or_false] at he
    rcases he with rfl | rfl | rfl | rfl <;> trivial

theorem hops_of_mem_edges : ∀ e ∈ s.edges, e.hops = 1 := by
  intro e he
  rcases s.edges_cases he with ⟨m, -, rfl | rfl⟩ | he
  · rfl
  · rfl
  · simp only [List.mem_cons, List.not_mem_nil, or_false] at he
    rcases he with rfl | rfl | rfl | rfl <;> rfl

/-- The search finds the first chain if it is not too long. -/
theorem search_eq_some_iff {c : Converter} :
    s.search sources accepts = some c ↔
      ∃ p, FirstAt s.edges sources accepts p c ∧ p.length ≤ max s.maxHops 1 := by
  have hstart : ∀ t, Reached s.edges sources 0 t → accepts t = true → t ∈ sources :=
    fun t ht _ => reached_zero.1 ht
  rw [search, ← map_snd_startAt]
  rw [searchFrom_eq_some_iff (max s.maxHops 1) round_start hstart, Nat.zero_add]

theorem isSome_search_iff :
    (s.search sources accepts).isSome ↔
      ∃ p c, RouteAt s.edges sources accepts p c ∧ p.length ≤ max s.maxHops 1 := by
  rw [Option.isSome_iff_exists]
  constructor
  · rintro ⟨c, hc⟩
    obtain ⟨p, hp, hlength⟩ := (s.search_eq_some_iff sources accepts).1 hc
    exact ⟨p, c, hp.route, hlength⟩
  · rintro ⟨p, c, hp, hlength⟩
    obtain ⟨q, d, hq, hle⟩ := hp.exists_first
    exact ⟨d, (s.search_eq_some_iff sources accepts).2 ⟨q, hq, Nat.le_trans hle hlength⟩⟩

theorem search_eq_custom {before after : List CustomConverter} {m : CustomConverter}
    (hcustom : s.custom = before ++ m :: after) (hsource : m.source ∈ sources)
    (haccepted : accepts m.target = true) (houtside : m.target ∉ sources)
    (hbefore : ∀ b ∈ before, b.source ∈ sources → accepts b.target = true → b.target ∈ sources) :
    s.search sources accepts = some (.custom m) := by
  obtain ⟨rounds, hrounds⟩ : ∃ rounds, max s.maxHops 1 = rounds + 1 :=
    ⟨max s.maxHops 1 - 1, by omega⟩
  obtain ⟨rest, hedges⟩ : ∃ rest, s.edges = before.map .custom ++ .custom m :: rest := by
    rw [edges, hcustom, List.map_append, List.map_cons, List.append_assoc, List.append_assoc,
      List.cons_append]
    exact ⟨_, rfl⟩
  have hnone : ((before.map Converter.custom).filter fun e =>
      sources.contains e.source && !sources.contains e.target).find? (accepts ·.target) = none := by
    rw [List.find?_eq_none]
    intro e he haccepted
    obtain ⟨hmem, hkeep⟩ := List.mem_filter.1 he
    obtain ⟨b, hb, rfl⟩ := List.mem_map.1 hmem
    have hkeep : b.source ∈ sources ∧ b.target ∉ sources := by
      simpa [Converter.source, Converter.target] using hkeep
    exact hkeep.2 (hbefore b hb hkeep.1 haccepted)
  have hm : (sources.contains (Converter.custom m).source &&
      !sources.contains (Converter.custom m).target) = true := by
    simpa [Converter.source, Converter.target] using ⟨hsource, houtside⟩
  have haccepted : accepts (Converter.custom m).target = true := haccepted
  rw [search, hrounds, searchFrom, hedges, List.filter_append, List.filter_cons, if_pos hm,
    List.find?_append, hnone, Option.none_or, List.find?_cons, haccepted]

/-- The search for a chain of converters. It finds one exactly when some sequence of allowed length
leads from a source to an accepted type outside the sources. What it finds is well-typed, no such
sequence is shorter, and of those that are equally long its places come lexicographically first; so
the first declared converter from a source to an accepted type wins. -/
theorem search_first :
    ((s.search sources accepts).isSome ↔
      ∃ p c, RouteAt s.edges sources accepts p c ∧ p.length ≤ max s.maxHops 1) ∧
    (∀ c, s.search sources accepts = some c →
      c.source ∈ sources ∧ accepts c.target = true ∧ c.target ∉ sources ∧ c.Joined ∧
      ∃ p, ChainAt s.edges sources p c ∧ c.hops = p.length ∧ p.length ≤ max s.maxHops 1 ∧
        ∀ q d, RouteAt s.edges sources accepts q d →
          c.hops ≤ d.hops ∧ (d.hops = c.hops → q = p ∨ List.Lex (· < ·) p q)) ∧
    (∀ before m after, s.custom = before ++ m :: after →
      m.source ∈ sources → accepts m.target = true → m.target ∉ sources →
      (∀ b ∈ before, b.source ∈ sources → accepts b.target = true → b.target ∈ sources) →
      s.search sources accepts = some (.custom m)) := by
  refine ⟨s.isSome_search_iff sources accepts, fun c hc => ?_, fun before m after hcustom hsource
    haccepted houtside => s.search_eq_custom sources accepts hcustom hsource haccepted houtside⟩
  obtain ⟨p, hp, hlength⟩ := (s.search_eq_some_iff sources accepts).1 hc
  have hchain := hp.route.chain
  have hhops := fun q d (hd : ChainAt s.edges sources q d) => hd.hops_eq s.hops_of_mem_edges
  refine ⟨hchain.source_mem, hp.route.accepted, hp.route.outside, hchain.joined s.joined_of_mem_edges,
    p, hchain, hhops p c hchain, hlength, fun q d hd => ?_⟩
  rw [hhops p c hchain, hhops q d hd.chain]
  rcases hp.least q d hd with rfl | hlt
  · exact ⟨Nat.le_refl _, fun _ => .inl rfl⟩
  · rcases List.shortlex_def.1 hlt with hshorter | ⟨heq, hlex⟩
    · exact ⟨Nat.le_of_lt hshorter, fun heq => absurd heq (Nat.ne_of_gt hshorter)⟩
    · exact ⟨Nat.le_of_eq heq, fun _ => .inr hlex⟩

def dateConverter (methodName : String) (source target : TypeExpr) : CustomConverter :=
  ⟨"Dates", .static, methodName, source, target⟩

/-- A date has a text, which a label also leads to, and a number that is declared last. -/
def dateStore : Store where
  decls := {}
  maxHops := 2
  custom := [dateConverter "label" (.simple "Date") (.simple "Label"),
    dateConverter "label_text" (.simple "Label") .string,
    dateConverter "text" (.simple "Date") .string,
    dateConverter "millis" (.simple "Date") (.simple "i64")]

/-- The text is kept, and not the detour through the label or the number. -/
theorem search_first_date :
    dateStore.search [.simple "Date"] (isColumnType none) =
        some (.custom (dateConverter "text" (.simple "Date") .string)) ∧
      ∀ q d, RouteAt dateStore.edges [.simple "Date"] (isColumnType none) q d → 1 ≤ d.hops := by
  have hfirst := dateStore.search_first [.simple "Date"] (isColumnType none)
  have hfound := hfirst.2.2 [dateConverter "label" (.simple "Date") (.simple "Label"),
    dateConverter "label_text" (.simple "Label") .string] _ _ rfl (by decide) (by decide +kernel)
    (by decide) (by decide +kernel)
  obtain ⟨-, -, -, -, p, -, -, -, hleast⟩ := hfirst.2.1 _ hfound
  exact ⟨hfound, fun q d hd => (hleast q d hd).1⟩

end Store

end DataAccess.Convert
