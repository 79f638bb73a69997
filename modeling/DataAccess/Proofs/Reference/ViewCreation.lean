import DataAccess.Reference.Database
import Mathlib.Data.List.Nodup

/-!
Attempts that wait for one another. Where more of what succeeded before an attempt never hurts it,
trying again until nothing more succeeds does everything that can be done in any order, each of it
once; for views this means that the order of their declarations does not matter.
-/

set_option autoImplicit false

namespace DataAccess.Reference

open Schema

namespace Retry

variable {σ α ε : Type} {attempt : α → σ → σ × Option ε} {items pending done order : List α}
  {s t u : σ} {a : α}

/-- Attempts that succeed one after another, each item once: `done` leads from `s` to `t`. -/
inductive Runs (attempt : α → σ → σ × Option ε) (s : σ) : List α → σ → Prop where
  | nil : Runs attempt s [] s
  | snoc {done : List α} {t u : σ} {a : α} : Runs attempt s done t → a ∉ done →
      attempt a t = (u, none) → Runs attempt s (done ++ [a]) u

/-- Whether an item succeeds depends, from `s` on, only on which other items have succeeded before it,
and more of them never make it fail. A failed attempt changes nothing. -/
structure Dependable (attempt : α → σ → σ × Option ε) (items : List α) (s : σ) : Prop where
  mono {done done' : List α} {t t' : σ} {a : α} : Runs attempt s done t → Runs attempt s done' t' →
    done ⊆ done' → done' ⊆ items → a ∈ items → a ∉ done' → (attempt a t).2 = none →
    (attempt a t').2 = none
  unchanged {done : List α} {t : σ} {a : α} {e : ε} : Runs attempt s done t → done ⊆ items →
    a ∈ items → (attempt a t).2 = some e → (attempt a t).1 = t

/-- The item is among those that succeed one after another in some order. -/
def IsPossible (attempt : α → σ → σ × Option ε) (items : List α) (s : σ) (a : α) : Prop :=
  ∃ order t, Runs attempt s order t ∧ order ⊆ items ∧ a ∈ order

namespace Runs

theorem nodup (h : Runs attempt s done t) : done.Nodup := by
  induction h with
  | nil => exact List.nodup_nil
  | snoc _ hnew _ ih => exact List.nodup_append.2 ⟨ih, List.nodup_singleton _, by grind⟩

theorem snoc_cases (h : Runs attempt s (done ++ [a]) u) :
    ∃ t, Runs attempt s done t ∧ a ∉ done ∧ attempt a t = (u, none) := by
  generalize hall : done ++ [a] = all at h
  cases h with
  | nil => exact absurd hall (by simp)
  | snoc hrun hnew hsucceeds =>
    obtain ⟨rfl, rfl⟩ : done = _ ∧ a = _ := by simpa using List.append_inj' hall rfl
    exact ⟨_, hrun, hnew, hsucceeds⟩

theorem unique (h : Runs attempt s done t) (h' : Runs attempt s done u) : t = u := by
  induction h generalizing u with
  | nil =>
    generalize hnil : ([] : List α) = all at h'
    cases h' with
    | nil => rfl
    | snoc => exact absurd hnil.symm (by simp)
  | snoc _ _ hsucceeds ih =>
    obtain ⟨t', hrun, -, hsucceeds'⟩ := h'.snoc_cases
    rw [← ih hrun, hsucceeds] at hsucceeds'
    exact (Prod.mk.inj hsucceeds').1

end Runs

/-! One pass. -/

theorem tryEach_of_succeeds (h : attempt a s = (t, none)) (rest : List α) :
    tryEach attempt (a :: rest) s = tryEach attempt rest t := by
  simp [tryEach, h]

theorem tryEach_of_fails {e : ε} (h : attempt a s = (t, some e)) (rest : List α) :
    tryEach attempt (a :: rest) s =
      ((tryEach attempt rest t).1, (a, e) :: (tryEach attempt rest t).2) := by
  simp [tryEach, h]

theorem length_tryEach_le (pending : List α) (s : σ) :
    (tryEach attempt pending s).2.length ≤ pending.length := by
  induction pending generalizing s with
  | nil => exact Nat.le_refl 0
  | cons a rest ih =>
    rcases h : attempt a s with ⟨t, error⟩
    have hrest := ih t
    cases error with
    | none => rw [tryEach_of_succeeds h, List.length_cons]; omega
    | some e => rw [tryEach_of_fails h, List.length_cons, List.length_cons]; omega

section Pass

variable [DecidableEq α]

/-- What succeeds in a pass extends the run, and the rest is left in its order. Where nothing
succeeds, everything has failed where the pass began. -/
theorem exists_tryEach (h : Dependable attempt items s) (hpending : pending.Nodup)
    (hitems : pending ⊆ items) (hdone : done ⊆ items) (hnew : ∀ a ∈ pending, a ∉ done)
    (hrun : Runs attempt s done t) :
    ∃ more, more ⊆ pending ∧ Runs attempt s (done ++ more) (tryEach attempt pending t).1 ∧
      (tryEach attempt pending t).2.map Prod.fst = pending.filter (· ∉ more) ∧
      (more = [] → ∀ f ∈ (tryEach attempt pending t).2, attempt f.1 t = (t, some f.2)) := by
  induction pending generalizing done t with
  | nil => exact ⟨[], List.nil_subset _, by rwa [List.append_nil], rfl, fun _ f hf => nomatch hf⟩
  | cons a rest ih =>
    obtain ⟨hfirst, hrest⟩ := List.nodup_cons.1 hpending
    obtain ⟨ha, hsub⟩ := List.cons_subset.1 hitems
    obtain ⟨hnot, hnews⟩ := List.forall_mem_cons.1 hnew
    rcases hattempt : attempt a t with ⟨u, error⟩
    cases error with
    | none =>
      rw [tryEach_of_succeeds hattempt]
      have hdone' : done ++ [a] ⊆ items := List.append_subset.2 ⟨hdone, by simpa using ha⟩
      have hnew' : ∀ b ∈ rest, b ∉ done ++ [a] := fun b hb => by
        rw [List.mem_append, List.mem_singleton, not_or]
        exact ⟨hnews b hb, fun heq => hfirst (heq ▸ hb)⟩
      obtain ⟨more, hmore, hruns, hleft, -⟩ := ih hrest hsub hdone' hnew' (hrun.snoc hnot hattempt)
      refine ⟨a :: more, List.cons_subset_cons a hmore, by rwa [List.append_cons], ?_, nofun⟩
      rw [hleft, List.filter_cons_of_neg (by simp)]
      refine List.filter_congr fun b hb => ?_
      have hne : b ≠ a := fun heq => hfirst (heq ▸ hb)
      simp [hne]
    | some e =>
      obtain rfl : u = t := by simpa [hattempt] using h.unchanged (e := e) hrun hdone ha (by rw [hattempt])
      rw [tryEach_of_fails hattempt]
      obtain ⟨more, hmore, hruns, hleft, hstuck⟩ := ih hrest hsub hdone hnews hrun
      refine ⟨more, List.subset_cons_of_subset a hmore, hruns, ?_, fun hnone => ?_⟩
      · rw [List.map_cons, hleft, List.filter_cons_of_pos (by simpa using fun hmem => hfirst (hmore hmem))]
      · exact List.forall_mem_cons.2 ⟨hattempt, hstuck hnone⟩

/-! The whole loop. -/

/-- The loop ends where everything that is not done fails; it reports the first of that. -/
structure SettledBy (attempt : α → σ → σ × Option ε) (items : List α) (s : σ) (done : List α)
    (r : σ × Option (α × ε)) : Prop where
  runs : Runs attempt s done r.1
  subset : done ⊆ items
  stuck : ∀ a ∈ items, a ∉ done → ∃ e, attempt a r.1 = (r.1, some e)
  outcome : r.2 = (items.find? (· ∉ done)).bind fun a => (attempt a r.1).2.map (a, ·)

/-- The pass after `done` as a whole: what is left after it is what is not done after it. -/
theorem exists_pass (h : Dependable attempt items s) (hitems : items.Nodup) (hdone : done ⊆ items)
    (hrun : Runs attempt s done t) {pending : List α} (hpending : items.filter (· ∉ done) = pending) :
    ∃ all, all ⊆ items ∧ Runs attempt s all (tryEach attempt pending t).1 ∧
      items.filter (· ∉ all) = (tryEach attempt pending t).2.map Prod.fst ∧
      (pending.length ≤ (tryEach attempt pending t).2.length →
        ∀ f ∈ (tryEach attempt pending t).2,
          attempt f.1 (tryEach attempt pending t).1 = ((tryEach attempt pending t).1, some f.2)) := by
  subst hpending
  obtain ⟨more, hmore, hruns, hleft, hstuck⟩ := exists_tryEach h (hitems.filter _)
    (List.filter_sublist.subset) hdone (fun a ha => of_decide_eq_true (List.mem_filter.1 ha).2) hrun
  refine ⟨done ++ more, ?_, hruns, ?_, fun hlength => ?_⟩
  · exact List.append_subset.2 ⟨hdone, fun a ha => (List.mem_filter.1 (hmore ha)).1⟩
  · rw [hleft, List.filter_filter]
    refine List.filter_congr fun a _ => ?_
    simp [not_or, Bool.and_comm]
  · have hnone : more = [] := by
      have hkept := congrArg List.length hleft
      rw [List.length_map] at hkept
      have hall := List.length_filter_eq_length_iff.1
        (Nat.le_antisymm (List.length_filter_le ..) (hkept ▸ hlength))
      exact List.eq_nil_iff_forall_not_mem.2 fun a ha => of_decide_eq_true (hall a (hmore ha)) ha
    rw [hnone, List.append_nil] at hruns
    rw [hruns.unique hrun]
    exact hstuck hnone

theorem exists_untilSettled (h : Dependable attempt items s) (hitems : items.Nodup)
    (hdone : done ⊆ items) (hrun : Runs attempt s done t)
    {pending : List α} (hpending : items.filter (· ∉ done) = pending) :
    ∃ all, SettledBy attempt items s all (untilSettled attempt pending t) := by
  fun_induction untilSettled attempt pending t generalizing done with
  | case1 pending t u hpass =>
    obtain ⟨all, hall, hruns, hleft, -⟩ := exists_pass h hitems hdone hrun hpending
    rw [hpass] at hleft hruns
    have hnone := List.filter_eq_nil_iff.1 hleft
    refine ⟨all, hruns, hall, fun a ha hnot => absurd (decide_eq_true hnot) (hnone a ha), ?_⟩
    rw [List.find?_eq_none.2 hnone]
    rfl
  | case2 pending t u a e failed hpass hlt ih =>
    obtain ⟨all, hall, hruns, hleft, -⟩ := exists_pass h hitems hdone hrun hpending
    rw [hpass] at hleft hruns
    exact ih hall hruns hleft
  | case3 pending t u a e failed hpass hge =>
    obtain ⟨all, hall, hruns, hleft, hstuck⟩ := exists_pass h hitems hdone hrun hpending
    rw [hpass] at hleft hruns hstuck
    have hfails := hstuck (by simpa using hge)
    refine ⟨all, hruns, hall, fun b hb hnot => ?_, ?_⟩
    · have hmem : b ∈ items.filter (· ∉ all) := List.mem_filter.2 ⟨hb, decide_eq_true hnot⟩
      rw [hleft] at hmem
      obtain ⟨f, hf, rfl⟩ := List.mem_map.1 hmem
      exact ⟨f.2, hfails f hf⟩
    · have hfirst : items.find? (· ∉ all) = some a := by
        rw [← List.head?_filter, hleft]
        rfl
      have hfail := hfails (a, e) List.mem_cons_self
      dsimp only at hfail ⊢
      rw [hfirst, Option.bind_some, hfail]
      rfl

/-- Nothing is possible in any order that is not done when the loop ends. -/
theorem SettledBy.subset_of_runs {r : σ × Option (α × ε)} (h : Dependable attempt items s)
    (hsettled : SettledBy attempt items s done r) (hrun : Runs attempt s order u)
    (horder : order ⊆ items) : order ⊆ done := by
  induction hrun with
  | nil => exact List.nil_subset _
  | @snoc order t u a hrun _ hsucceeds ih =>
    obtain ⟨hsub, ha⟩ := List.append_subset.1 horder
    refine List.append_subset.2 ⟨ih hsub, List.cons_subset.2 ⟨?_, List.nil_subset _⟩⟩
    refine Decidable.not_not.1 fun hnot => ?_
    obtain ⟨e, he⟩ := hsettled.stuck a (ha List.mem_cons_self) hnot
    have hlater := h.mono hrun hsettled.runs (ih hsub) hsettled.subset (ha List.mem_cons_self) hnot
      (by rw [hsucceeds])
    rw [he] at hlater
    exact absurd hlater nofun

/-- What is done when the loop ends is what is possible in some order. -/
theorem SettledBy.mem_iff {r : σ × Option (α × ε)} (h : Dependable attempt items s)
    (hsettled : SettledBy attempt items s done r) : a ∈ done ↔ IsPossible attempt items s a := by
  constructor
  · exact fun ha => ⟨done, r.1, hsettled.runs, hsettled.subset, ha⟩
  · rintro ⟨order, u, hrun, horder, ha⟩
    exact hsettled.subset_of_runs h hrun horder ha

/-- The loop succeeds if all can succeed in some order, and then everything is done once. -/
theorem SettledBy.perm_iff {r : σ × Option (α × ε)} (h : Dependable attempt items s)
    (hitems : items.Nodup) (hsettled : SettledBy attempt items s done r) :
    done.Perm items ↔ ∃ order u, order.Perm items ∧ Runs attempt s order u := by
  constructor
  · exact fun hperm => ⟨done, r.1, hperm, hsettled.runs⟩
  · rintro ⟨order, u, hperm, hrun⟩
    have hall := hsettled.subset_of_runs h hrun hperm.subset
    refine (List.perm_ext_iff_of_nodup hsettled.runs.nodup hitems).2 fun a => ⟨fun ha => ?_, fun ha => ?_⟩
    · exact hsettled.subset ha
    · exact hall (hperm.mem_iff.2 ha)

theorem SettledBy.outcome_eq_none_iff {r : σ × Option (α × ε)} (hitems : items.Nodup)
    (hsettled : SettledBy attempt items s done r) : r.2 = none ↔ done.Perm items := by
  rw [hsettled.outcome, Option.bind_eq_none_iff, List.perm_ext_iff_of_nodup hsettled.runs.nodup hitems]
  constructor
  · refine fun hnone a => ⟨fun ha => hsettled.subset ha, fun ha => Decidable.not_not.1 fun hnot => ?_⟩
    obtain ⟨b, hb⟩ : ∃ b, items.find? (· ∉ done) = some b :=
      Option.isSome_iff_exists.1 (List.find?_isSome.2 ⟨a, ha, decide_eq_true hnot⟩)
    have hfound := List.find?_some hb
    obtain ⟨e, he⟩ := hsettled.stuck b (List.mem_of_find?_eq_some hb) (of_decide_eq_true hfound)
    have := hnone b hb
    rw [he] at this
    exact absurd this nofun
  · intro hall a ha
    have hnot := List.find?_some ha
    exact absurd ((hall a).2 (List.mem_of_find?_eq_some ha)) (of_decide_eq_true hnot)

/-- What is reported is the first item that is not done, with its failure at the end. -/
theorem SettledBy.of_outcome_eq_some {r : σ × Option (α × ε)} {e : ε}
    (hsettled : SettledBy attempt items s done r) (hr : r.2 = some (a, e)) :
    items.find? (· ∉ done) = some a ∧ attempt a r.1 = (r.1, some e) := by
  rw [hsettled.outcome, Option.bind_eq_some_iff] at hr
  obtain ⟨b, hb, hfails⟩ := hr
  obtain ⟨e', he', hpair⟩ := Option.map_eq_some_iff.1 hfails
  obtain ⟨rfl, rfl⟩ := Prod.mk.inj hpair
  have hnot := List.find?_some hb
  obtain ⟨e, he⟩ := hsettled.stuck b (List.mem_of_find?_eq_some hb) (of_decide_eq_true hnot)
  rw [he] at he'
  exact ⟨hb, he' ▸ he⟩

end Pass

/-! What is noted about a run, and the number of its passes. -/

/-- Attempts that also note what succeeds, in order. -/
def noting (attempt : α → σ → σ × Option ε) (a : α) (s : σ × List α) : (σ × List α) × Option ε :=
  match attempt a s.1 with
  | (t, none) => ((t, s.2 ++ [a]), none)
  | (t, some e) => ((t, s.2), some e)

variable (attempt) in
theorem noting_fst (a : α) (s : σ × List α) : (noting attempt a s).1.1 = (attempt a s.1).1 := by
  unfold noting
  split <;> simp [*]

variable (attempt) in
theorem noting_snd (a : α) (s : σ × List α) : (noting attempt a s).2 = (attempt a s.1).2 := by
  unfold noting
  split <;> simp [*]

theorem tryEach_noting (pending : List α) (s : σ × List α) :
    tryEach attempt pending s.1 = ((tryEach (noting attempt) pending s).1.1,
      (tryEach (noting attempt) pending s).2) := by
  induction pending generalizing s with
  | nil => rfl
  | cons a rest ih =>
    have hrest := ih (noting attempt a s).1
    rw [noting_fst] at hrest
    simp only [tryEach, noting_snd, hrest]
    cases (attempt a s.1).2 <;> rfl

variable (attempt) in
/-- Notes change nothing. -/
theorem untilSettled_noting (pending : List α) (s : σ × List α) :
    untilSettled attempt pending s.1 = ((untilSettled (noting attempt) pending s).1.1,
      (untilSettled (noting attempt) pending s).2) := by
  fun_induction untilSettled (noting attempt) pending s with
  | case1 pending s t hpass =>
    rw [untilSettled, tryEach_noting, hpass]
  | case2 pending s t a e failed hpass hlt ih =>
    rw [untilSettled, tryEach_noting, hpass]
    simp only [hlt, if_true]
    exact ih
  | case3 pending s t a e failed hpass hge =>
    rw [untilSettled, tryEach_noting, hpass]
    simp only [hge, if_false]

/-- What is noted is what succeeded. -/
theorem Runs.of_noting {r : σ × List α} (h : Runs (noting attempt) (s, []) done r) :
    Runs attempt s done r.1 ∧ r.2 = done := by
  induction h with
  | nil => exact ⟨.nil, rfl⟩
  | @snoc done t u a _ hnew hsucceeds ih =>
    obtain ⟨hrun, hnoted⟩ := ih
    have hsnd := noting_snd attempt a t
    have hfst := noting_fst attempt a t
    rw [hsucceeds] at hsnd hfst
    have hattempt : attempt a t.1 = (u.1, none) := Prod.ext hfst.symm hsnd.symm
    refine ⟨hrun.snoc hnew hattempt, ?_⟩
    simp only [noting, hattempt] at hsucceeds
    rw [← (Prod.mk.inj hsucceeds).1, hnoted]

theorem Dependable.noting (h : Dependable attempt items s) :
    Dependable (noting attempt) items (s, []) where
  mono hrun hrun' hsub hitems ha hnew hsucceeds := by
    rw [noting_snd] at hsucceeds ⊢
    exact h.mono hrun.of_noting.1 hrun'.of_noting.1 hsub hitems ha hnew hsucceeds
  unchanged {done t a e} hrun hitems ha hfails := by
    rw [noting_snd] at hfails
    have hsame := h.unchanged hrun.of_noting.1 hitems ha hfails
    have hattempt : attempt a t.1 = (t.1, some e) := Prod.ext hsame hfails
    simp only [Retry.noting, hattempt]

theorem SettledBy.of_noting [DecidableEq α] {r : (σ × List α) × Option (α × ε)}
    (h : SettledBy (noting attempt) items (s, []) done r) :
    SettledBy attempt items s done (r.1.1, r.2) where
  runs := h.runs.of_noting.1
  subset := h.subset
  stuck a ha hnot := by
    obtain ⟨e, he⟩ := h.stuck a ha hnot
    have hfst := noting_fst attempt a r.1
    have hsnd := noting_snd attempt a r.1
    rw [he] at hfst hsnd
    exact ⟨e, Prod.ext hfst.symm hsnd.symm⟩
  outcome := by simpa only [noting_snd] using h.outcome

/-- The loop with at most a number of passes: it ends when all that was left has failed. -/
def withinPasses (attempt : α → σ → σ × Option ε) : Nat → List α → σ → Option (σ × Option (α × ε))
  | _, [], s => some (s, none)
  | 0, _ :: _, _ => none
  | n + 1, a :: rest, s =>
    match tryEach attempt (a :: rest) s with
    | (s, []) => some (s, none)
    | (s, (b, e) :: failed) =>
      if failed.length = rest.length then some (s, some (b, e))
      else withinPasses attempt n (b :: failed.map Prod.fst) s

variable (attempt) in
/-- As many passes as there are items are enough. -/
theorem withinPasses_eq (n : Nat) (pending : List α) (s : σ) (hn : pending.length ≤ n) :
    withinPasses attempt n pending s = some (untilSettled attempt pending s) := by
  induction n generalizing pending s with
  | zero =>
    obtain rfl := List.length_eq_zero_iff.1 (Nat.le_zero.1 hn)
    simp [withinPasses, untilSettled, tryEach]
  | succ n ih =>
    cases pending with
    | nil => simp [withinPasses, untilSettled, tryEach]
    | cons a rest =>
      have hle : (tryEach attempt (a :: rest) s).2.length ≤ (a :: rest).length :=
        length_tryEach_le (a :: rest) s
      rw [withinPasses, untilSettled]
      rcases hpass : tryEach attempt (a :: rest) s with ⟨t, _ | ⟨⟨b, e⟩, failed⟩⟩
      · rfl
      · rw [hpass, List.length_cons, List.length_cons] at hle
        dsimp only
        rw [List.length_cons]
        by_cases hall : failed.length = rest.length
        · simp [hall]
        · have hlt : failed.length + 1 < rest.length + 1 := by omega
          have hleft : (b :: failed.map Prod.fst).length ≤ n := by
            simp only [List.length_cons, List.length_map] at hn ⊢
            omega
          rw [if_neg hall, if_pos hlt]
          exact ih _ t hleft

end Retry

open Retry

variable {σ ε : Type} {execute : String → σ → σ × Option ε} {views : List View} {s t : σ}

theorem createAll_of_untilSettled {outcome : Option (View × ε)}
    (h : untilSettled (fun v : View => execute v.createView) views s = (t, outcome)) :
    createAll execute views s = outcome.elim (.ok t) fun f => .error (f.1.viewName, f.2) := by
  rw [createAll, h]
  cases outcome <;> rfl

/-- The order in which views are declared does not matter: as many passes as there are views are enough,
every view that can be created in some order is created once, and that is all of them if and only if
some order creates them all. Otherwise the error names the first view that cannot be created even
when all the others are there. -/
theorem createAll_any_order (hnames : (views.map View.viewName).Nodup)
    (h : Dependable (fun v : View => execute v.createView) views s) :
    let attempt := fun v : View => execute v.createView
    ∃ created t outcome,
      withinPasses (noting attempt) views.length views (s, []) = some ((t, created), outcome) ∧
      Runs attempt s created t ∧
      (∀ v, v ∈ created ↔ IsPossible attempt views s v) ∧
      ((∃ u, createAll execute views s = .ok u) ↔
        ∃ order u, order.Perm views ∧ Runs attempt s order u) ∧
      match createAll execute views s with
      | .ok u => u = t ∧ created.Perm views
      | .error (name, e) =>
        ∃ v, views.find? (· ∉ created) = some v ∧ v.viewName = name ∧ attempt v t = (t, some e) := by
  intro attempt
  have hviews : views.Nodup := List.Nodup.of_map _ hnames
  have hall : views.filter (· ∉ ([] : List View)) = views :=
    List.filter_eq_self.2 fun v _ => decide_eq_true List.not_mem_nil
  obtain ⟨created, hnoted⟩ := exists_untilSettled h.noting hviews (List.nil_subset _) .nil hall
  have hwithin := withinPasses_eq (noting attempt) _ views (s, []) (Nat.le_refl _)
  have hplain := untilSettled_noting attempt views (s, [])
  obtain ⟨⟨⟨t, noted⟩, outcome⟩, hr⟩ : ∃ r, untilSettled (noting attempt) views (s, []) = r := ⟨_, rfl⟩
  rw [hr] at hnoted hwithin hplain
  obtain rfl : noted = created := hnoted.runs.of_noting.2
  have hsettled := hnoted.of_noting
  have hcreate := createAll_of_untilSettled hplain
  refine ⟨noted, t, outcome, hwithin, hsettled.runs, fun v => hsettled.mem_iff h, ?_, ?_⟩
  · rw [← hsettled.perm_iff h hviews, ← hsettled.outcome_eq_none_iff hviews, hcreate]
    cases outcome with
    | none => simp
    | some failure => simp
  · rw [hcreate]
    cases outcome with
    | none => exact ⟨rfl, (hsettled.outcome_eq_none_iff hviews).1 rfl⟩
    | some failure =>
      obtain ⟨v, e⟩ := failure
      obtain ⟨hfirst, hfails⟩ := hsettled.of_outcome_eq_some rfl
      exact ⟨v, hfirst, rfl, hfails⟩

/-- A schema that keeps the statements it has run, refuses to run one again, and cannot read those that
are not `readable`. -/
def runOnce (readable : List String) (sql : String) (ran : List String) :
    List String × Option String :=
  if sql ∉ readable then (ran, some "incomplete input")
  else if sql ∈ ran then (ran, some "already exists")
  else (ran ++ [sql], none)

theorem runOnce_eq_none_iff {readable ran : List String} {sql : String} :
    (runOnce readable sql ran).2 = none ↔ sql ∈ readable ∧ sql ∉ ran := by
  unfold runOnce
  split
  · simp [*]
  · split <;> simp_all

theorem runs_runOnce {readable : List String} {done : List View} {ran : List String}
    (h : Runs (fun v : View => runOnce readable v.createView) [] done ran) :
    ran = done.map View.createView := by
  induction h with
  | nil => rfl
  | @snoc done ran ran' v _ _ hsucceeds ih =>
    obtain ⟨hreadable, hnew⟩ := runOnce_eq_none_iff.1 (congrArg Prod.snd hsucceeds)
    rw [runOnce, if_neg (not_not.2 hreadable), if_neg hnew] at hsucceeds
    rw [← (Prod.mk.inj hsucceeds).1, ih, List.map_append, List.map_singleton]

theorem dependable_runOnce (readable : List String) (hviews : (views.map View.createView).Nodup) :
    Dependable (fun v : View => runOnce readable v.createView) views [] where
  mono {_ done' _ _ v} _ hrun' _ hsub hv hnot hsucceeds := by
    refine runOnce_eq_none_iff.2 ⟨(runOnce_eq_none_iff.1 hsucceeds).1, fun hran => ?_⟩
    rw [runs_runOnce hrun', List.mem_map] at hran
    obtain ⟨w, hw, hsame⟩ := hran
    exact hnot (List.inj_on_of_nodup_map hviews (hsub hw) hv hsame ▸ hw)
  unchanged {_ ran v e} _ _ _ hfails := by
    simp only [runOnce] at hfails ⊢
    split
    · rfl
    · split <;> simp_all

/-- A view that builds on a later one is created, and one that cannot be read is named. -/
theorem createAll_any_order_broken :
    let richOwner : View := ⟨⟨"RichOwner", [], [], []⟩, none, "SELECT * FROM Owner WHERE score > 10"⟩
    let broken : View := ⟨⟨"Broken", [], [], []⟩, none, "SELECT * FROM"⟩
    let owner : View := ⟨⟨"Owner", [], [], []⟩, none, "SELECT u.id, u.score FROM user u"⟩
    let views := [richOwner, broken, owner]
    let execute := runOnce [richOwner.createView, owner.createView]
    (views.map View.viewName).Nodup ∧ Dependable (fun v : View => execute v.createView) views [] ∧
    createAll execute views [] = .error ("Broken", "incomplete input") ∧
    ¬∃ order u, order.Perm views ∧ Runs (fun v : View => execute v.createView) [] order u := by
  intro richOwner broken owner views execute
  have hnames : (views.map View.viewName).Nodup := by decide
  have hdependable : Dependable (fun v : View => execute v.createView) views [] :=
    dependable_runOnce _ (by decide)
  have herror : createAll execute views [] = .error ("Broken", "incomplete input") := by
    have hpasses := withinPasses_eq (fun v : View => execute v.createView) 3 views []
      (by decide)
    have hloop : withinPasses (fun v : View => execute v.createView) 3 views [] =
        some ([richOwner.createView, owner.createView], some (broken, "incomplete input")) := by
      decide +kernel
    exact createAll_of_untilSettled (Option.some.inj (hpasses.symm.trans hloop))
  obtain ⟨created, t, outcome, -, -, -, hall, -⟩ := createAll_any_order hnames hdependable
  refine ⟨hnames, hdependable, herror, fun horder => ?_⟩
  obtain ⟨u, hu⟩ := hall.2 horder
  exact absurd (herror.symm.trans hu) nofun

end DataAccess.Reference
