import DataAccess.Proofs.Statement.Preparation
import DataAccess.Proofs.Statement.TidyDrafts

/-!
Parameters whose names do not start with an underscore. The local variables of the code that
prepares a statement do, so that none of them hides such a parameter.
-/

set_option autoImplicit false

namespace DataAccess

namespace Code

open ClassMembers (numbered)

def IsUnderscored (n : String) : Prop := n.toList.head? = some '_'

instance : DecidablePred IsUnderscored := fun n =>
  inferInstanceAs (Decidable (n.toList.head? = some '_'))

theorem IsGiven.isUnderscored {wishes : List String} {n : String} (h : IsGiven wishes n) : IsUnderscored n := by
  obtain ⟨wish, -, k, rfl⟩ := h
  cases k <;> simp [IsUnderscored, numbered, Emit.localBase]

/-- A draft that names its local variables with an underscore in front. -/
def Draft.Underscores {α : Type} (d : Draft α) : Prop :=
  ∀ t, ∀ n ∈ (d t).program.locals, IsUnderscored n

theorem Draft.Tidy.underscores {α : Type} {wishes : List String} {d : Draft α}
    (h : d.Tidy wishes) : d.Underscores :=
  fun t n hn => (h.given t n hn).isUnderscored

end Code

namespace Statement

open Code DataAccess.Convert

theorem Part.tidy_draftAll (builder : String) (parts : List Part) :
    (draftAll builder parts).Tidy preparationWishes := by
  induction parts with
  | nil => exact Draft.tidy_pure []
  | cons p parts ih =>
    refine Draft.Tidy.bind ?_ fun size? => ?_
    · cases p with
      | text t => exact (Draft.tidy_plain rfl).bind fun _ => Draft.tidy_pure _
      | items x =>
        refine Draft.tidy_fresh (by decide) fun size h => (Draft.tidy_define h).bind fun _ => ?_
        exact (Draft.tidy_plain rfl).bind fun _ => Draft.tidy_pure _
    · cases size? with
      | none => exact ih
      | some size => exact ih.bind fun _ => Draft.tidy_pure _

namespace BoundQuery

theorem tidy_draftSql (b : BoundQuery) : b.draftSql.Tidy preparationWishes := by
  refine Draft.tidy_fresh (by decide) fun sql hsql => ?_
  cases b.hasCollections with
  | false => exact (Draft.tidy_define hsql).bind fun _ => Draft.tidy_pure _
  | true =>
    refine Draft.tidy_fresh (by decide) fun builder h => (Draft.tidy_define h).bind fun _ => ?_
    refine (Part.tidy_draftAll _ _).bind fun sizes => ?_
    refine Draft.tidy_fresh (by decide) fun count h => (Draft.tidy_define hsql).bind fun _ => ?_
    exact (Draft.tidy_define h).bind fun _ => Draft.tidy_pure _

theorem tidy_draftBinds (b : BoundQuery) (statement : String) :
    (b.draftBinds statement).Tidy preparationWishes := by
  unfold draftBinds
  cases b.hasCollections with
  | false => exact Draft.tidy_forM fun _ => Argument.tidy_draftAt _ _ _ _
  | true =>
    refine Draft.tidy_fresh (by decide) fun counter h => (Draft.tidy_define h).bind fun _ => ?_
    exact Draft.tidy_forM fun _ => Argument.tidy_draftRunning _ _ _ _

theorem tidy_draftRead (b : BoundQuery) : b.draftRead.Tidy preparationWishes := by
  refine Draft.tidy_fresh (by decide) fun statement h => b.tidy_draftSql.bind fun sql => ?_
  refine (Draft.tidy_define h).bind fun _ => ?_
  exact (b.tidy_draftBinds _).bind fun _ => Draft.tidy_pure _

theorem tidy_draftWrite (b : BoundQuery) (method : String) :
    (b.draftWrite method).Tidy preparationWishes := by
  refine Draft.tidy_fresh (by decide) fun statement h => ?_
  have hrest (value : Expr) : (do
      Draft.step (b.define statement value)
      b.draftBinds statement
      return statement : Draft String).Tidy preparationWishes := by
    refine (Draft.tidy_define h).bind fun _ => ?_
    exact (b.tidy_draftBinds _).bind fun _ => Draft.tidy_pure _
  cases b.hasCollections with
  | false =>
    refine (Draft.tidy_onMembers (Keeps.preparedField _ _)).bind fun field => ?_
    exact Draft.tidy_receiver.bind fun object => hrest _
  | true =>
    refine b.tidy_draftSql.bind fun sql => ?_
    exact Draft.tidy_receiver.bind fun object => hrest _

/-- Parameters without an underscore in front are bound as they should be. -/
theorem aligned_of_not_isUnderscored (b : BoundQuery) (method : String) (t : Naming)
    {outer : List String} (hnames : ∀ p ∈ b.params, ¬IsUnderscored p.name ∧ p.name ∉ outer) :
    b.Aligned outer (b.draftRead t) b.readSource ∧
      b.Aligned outer (b.draftWrite method t) (b.writeSource method t.members) := by
  have hentry : ∀ entry ∈ b.arguments, ¬IsUnderscored entry.1 ∧ entry.1 ∉ outer := by
    intro entry hentry
    obtain ⟨c, hc, hargument⟩ := List.mem_filterMap.1 hentry
    obtain ⟨p, hp, hargument⟩ := Option.bind_eq_some_iff.1 hargument
    obtain ⟨a, -, hargument⟩ := Option.bind_eq_some_iff.1 hargument
    obtain rfl : (p.name, a) = entry := Option.some.inj hargument
    exact hnames p (mem_params hc hp)
  have hnew (d : Draft String) (hd : d.Underscores) :
      ∀ entry ∈ b.arguments, entry.1 ∉ (d t).program.locals ++ outer := by
    intro entry he hmem
    obtain ⟨hname, houter⟩ := hentry entry he
    rcases List.mem_append.1 hmem with hmem | hmem
    · exact hname (hd t _ hmem)
    · exact houter hmem
  obtain ⟨_, _, _, hread⟩ := b.prepares_draftRead t
  obtain ⟨_, _, _, hwrite⟩ := b.prepares_draftWrite method t
  rw [hread.aligned_iff, hwrite.aligned_iff]
  exact ⟨hread.unshadowed_of_not_mem (hnew _ b.tidy_draftRead.underscores),
    hwrite.unshadowed_of_not_mem (hnew _ (b.tidy_draftWrite method).underscores)⟩

end BoundQuery

end Statement

end DataAccess
