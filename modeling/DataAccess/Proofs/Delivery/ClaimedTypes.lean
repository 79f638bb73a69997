import DataAccess.Proofs.Delivery.Provision

/-!
The types that providers claim. A provider claims types by their paths and by how many arguments they
have; only the last providers, and those that were added, look at neither. Of a chain of providers the
first one that claims a type is chosen, and none behind it is asked.
-/

set_option autoImplicit false

namespace DataAccess

section Picks

variable {α : Type} {P : α → Prop}

/-- Going through a list for the first entry with a property: the entries that are looked at, and the
one that is found. -/
inductive Picks (P : α → Prop) : (list looked : List α) → (found : Option α) → Prop
  | found {before after : List α} {a : α} (hbefore : ∀ b ∈ before, ¬P b) (ha : P a) :
    Picks P (before ++ a :: after) (before ++ [a]) (some a)
  | nothing {list : List α} (h : ∀ b ∈ list, ¬P b) : Picks P list list none

theorem Picks.cons {list looked : List α} {found : Option α} {a : α} (ha : ¬P a)
    (h : Picks P list looked found) : Picks P (a :: list) (a :: looked) found := by
  cases h with
  | @found before _ _ hbefore hfound =>
    exact .found (List.forall_mem_cons.2 ⟨ha, hbefore⟩ : ∀ b ∈ a :: before, ¬P b) hfound
  | nothing hnone => exact .nothing (List.forall_mem_cons.2 ⟨ha, hnone⟩)

theorem Picks.mem {list looked : List α} {a : α} (h : Picks P list looked (some a)) :
    a ∈ list ∧ P a := by
  cases h with
  | found _ ha => exact ⟨List.mem_append_right _ List.mem_cons_self, ha⟩

end Picks

namespace Delivery

open Code

namespace ReadProvider

/-- The paths of the types that a provider claims, each with how many arguments such a type has. -/
def paths : ReadProvider → List (String × Nat)
  | cursor => [(RuntimeNames.cursor, 0)]
  | liveData => [(RuntimeNames.liveData, 1)]
  | listenableFuture => [(RuntimeNames.listenableFuture, 1)]
  | rxObservable rx | rxCallable rx => [(rx.path, rx.kind.arity)]
  | dataSource => [(RuntimeNames.positionalDataSource, 1), (RuntimeNames.dataSource, 2)]
  | dataSourceFactory => [(RuntimeNames.dataSourceFactory, 2)]
  | pagingSource => [(RuntimeNames.pagingSource, 2)]
  | flow => [(RuntimeNames.flow, 1)]
  | instant | custom _ => []

/-- The provider claims the type by one of its paths. -/
def ClaimsByPath (p : ReadProvider) (t : TypeExpr) : Prop :=
  ∃ path arity, (path, arity) ∈ p.paths ∧ t.args.length = arity ∧ t.matchesPath path = true

/-- The providers that claim types whatever their path inside the runtime library. -/
def IsGeneral (p : ReadProvider) : Prop := p = .instant ∨ ∃ c, p = .custom c

variable {p : ReadProvider} {environment : Environment} {t : TypeExpr}

theorem claimsByPath_of_claims (h : (p.claims environment t).answer = true) (hp : ¬p.IsGeneral) :
    p.ClaimsByPath t := by
  have hshape : ∀ {path arity}, (path, arity) ∈ p.paths →
      (decide (t.args.length = arity) && t.matchesPath path) = true → p.ClaimsByPath t := by
    intro path arity hmem hshape
    obtain ⟨harity, hpath⟩ := Bool.and_eq_true_iff.1 hshape
    exact ⟨path, arity, hmem, of_decide_eq_true harity, hpath⟩
  -- A check that fails is answered with `false` at once.
  have hpassed : ∀ {c : Bool} {check rest : Report Bool}, check.answer = false →
      (if (!c) = true then check else rest).answer = true → c = true ∧ rest.answer = true := by
    intro c check rest hcheck h
    cases c with
    | true => exact ⟨rfl, h⟩
    | false => exact absurd (hcheck.symm.trans h) Bool.false_ne_true
  unfold claims at h
  cases p with
  | instant => exact absurd (.inl rfl) hp
  | custom c => exact absurd (.inr ⟨c, rfl⟩) hp
  | cursor => exact hshape List.mem_cons_self h
  | liveData | listenableFuture | rxObservable | rxCallable =>
    exact hshape List.mem_cons_self (Bool.and_eq_true_iff.1 h).2
  | dataSource =>
    obtain ⟨-, h⟩ := hpassed rfl h
    split at h
    · exact hshape List.mem_cons_self ‹_›
    · exact hshape (List.mem_cons_of_mem _ List.mem_cons_self) (hpassed rfl h).1
  | dataSourceFactory | pagingSource =>
    exact hshape List.mem_cons_self (Bool.and_eq_true_iff.1 (hpassed rfl h).1).2
  | flow =>
    dsimp only at h
    split at h
    · exact absurd h Bool.false_ne_true
    · rename_i hshort
      split at h
      · exact absurd h Bool.false_ne_true
      · have harity : t.args.length = 1 := by
          by_contra harity
          simp [harity] at hshort
        exact ⟨_, _, List.mem_cons_self, harity, h⟩

end ReadProvider

namespace Providers

variable (environment : Environment) (t : TypeExpr)

/-- Asks providers for a type, whatever they answer. -/
def ask (ps : List ReadProvider) : Report PUnit := ps.forM fun p => discard (p.claims environment t)

/-- The provider is willing to deliver the type. -/
def Claims (p : ReadProvider) : Prop := (p.claims environment t).answer = true

/-- The providers are asked up to the first one that claims the type. -/
theorem firstClaiming_picks (ps : List ReadProvider) :
    ∃ asked found, Picks (Claims environment t) ps asked found ∧
      firstClaiming environment t ps = ask environment t asked >>= fun _ => pure found := by
  induction ps with
  | nil => exact ⟨[], none, .nothing (List.forall_mem_nil _), rfl⟩
  | cons p ps ih =>
    have hdetermined := (p.findsOnly_claims environment t).steady.determined
    rw [firstClaiming, hdetermined.bind_eq]
    cases hp : (p.claims environment t).answer with
    | true => exact ⟨[p], some p, .found (List.forall_mem_nil _) hp, rfl⟩
    | false =>
      obtain ⟨asked, found, hpicks, heq⟩ := ih
      refine ⟨p :: asked, found, hpicks.cons (by simp [Claims, hp]), ?_⟩
      rw [if_neg Bool.false_ne_true, heq]
      rfl

/-- What is delivered follows the plan of a provider of the chain that claims the type, or else the
type is delivered at once. -/
theorem exists_plan_of_readBinder (ps : Providers) (setting : Setting) (query : Sql.Query) :
    ∃ p, (p = .instant ∨ p ∈ ps.reads ∧ Claims setting.environment t p) ∧
      (ps.readBinder setting t query).answer = (p.plan t).binder setting.store query := by
  obtain ⟨asked, found, hpicks, heq⟩ := firstClaiming_picks setting.environment t ps.reads
  have hfound : (firstClaiming setting.environment t ps.reads).answer = found := by
    rw [heq]
    rfl
  refine ⟨found.getD .instant, ?_, ?_⟩
  · cases found with
    | none => exact .inl rfl
    | some p => exact .inr hpicks.mem
  · rw [readBinder, (steady_firstClaiming ..).determined.answer_bind
      (ReadProvider.steady_provide ..).determined, hfound, ReadProvider.answer_provide]

end Providers

end Delivery

end DataAccess
