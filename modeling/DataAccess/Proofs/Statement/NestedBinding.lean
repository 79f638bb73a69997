import DataAccess.Proofs.Rows.NestedReading
import DataAccess.Proofs.Statement.PlainBinding

/-!
The code that prepares a statement and binds its arguments is well nested, and so is the code that
binds an entity, which is written apart.
-/

set_option autoImplicit false

namespace DataAccess

open Code Delivery

variable {k : Nat}

namespace Convert.Argument

variable (a : Argument) (stmt counter input : String)

theorem nests_writeRunning : Nests k k (a.writeRunning stmt counter input) fun _ => True := by
  have hadvance : ∀ {depth : Nat} (b : ValueBinder) (value : String), Nests depth depth (do
      b.write stmt counter value
      Emit.statement (counter ++ " += 1")) fun _ => True :=
    fun b value => (b.nests_write stmt counter value).bind fun _ _ => nests_statement _
  cases a with
  | value b => exact hadvance b input
  | collection b =>
    refine (nests_fresh _).bind fun item _ => (hadvance b item).fork.bind fun body hbody => ?_
    exact (nests_enter _).bind fun _ _ => (nests_splice hbody).bind fun _ _ => nests_leave

theorem nests_writeAt (index : Nat) : Nests k k (a.writeAt stmt index input) fun _ => True := by
  cases a with
  | value b => exact b.nests_write stmt _ input
  | collection b =>
    refine (nests_fresh _).bind fun counter _ => (nests_statement _).bind fun _ _ => ?_
    exact (collection b).nests_writeRunning stmt counter input

end Convert.Argument

namespace Statement

/-- What binds the entities of a source is well nested. -/
def NestedSource : StatementSource → Prop
  | .statement _ => True
  | .entities statements => ∀ e ∈ statements, WellNested e.bind.lines

theorem grown_preparedField (base sql : String) (c : ClassMembers) :
    Grown c ((ClassMembers.field (preparedField base sql)).run c).2 :=
  Convert.grown_field_of_pure rfl c

namespace BoundQuery

variable (b : BoundQuery)

theorem nests_writePiece (builder : String) (piece : Piece) :
    Nests k k (writePiece builder piece) fun _ => True := by
  cases piece with
  | text t => exact (nests_statement _).bind fun _ _ => nests_pure trivial
  | placeholders expr =>
    refine (nests_fresh _).bind fun size _ => (nests_statement _).bind fun _ _ => ?_
    exact (nests_statement _).bind fun _ _ => nests_pure trivial

theorem nests_writeSql : Nests k k b.writeSql fun _ => True := by
  refine (nests_fresh _).bind fun sql _ => Nests.ite ?_ ?_
  · exact (nests_statement _).bind fun _ _ => nests_pure trivial
  refine (nests_fresh _).bind fun builder _ => (nests_statement _).bind fun _ _ => ?_
  refine (Nests.filterMapM _ (nests_writePiece builder)).bind fun sizes _ => ?_
  refine (nests_fresh _).bind fun count _ => (nests_statement _).bind fun _ _ => ?_
  exact (nests_statement _).bind fun _ _ => nests_pure trivial

theorem nests_writeBinds (statement : String) :
    Nests k k (b.writeBinds statement) fun _ => True := by
  refine Nests.ite ?_ ?_
  · refine (nests_fresh _).bind fun counter _ => (nests_statement _).bind fun _ _ => ?_
    exact Nests.forM _ fun (name, a) _ => a.nests_writeRunning statement counter name
  · exact Nests.forM _ fun ((name, a), index) _ => a.nests_writeAt statement name index

theorem nests_prepareRead : Nests k k b.prepareRead fun _ => True := by
  refine (nests_fresh _).bind fun statement _ => b.nests_writeSql.bind fun sql _ => ?_
  refine (nests_statement _).bind fun _ _ => (b.nests_writeBinds statement).bind fun _ _ => ?_
  exact nests_pure trivial

theorem nests_prepareWrite (method : String) :
    Nests k k (b.prepareWrite method) NestedSource := by
  refine (nests_fresh _).bind fun statement _ => ?_
  have hbinds : Nests k k (do
      b.writeBinds statement
      return StatementSource.statement statement) NestedSource :=
    (b.nests_writeBinds statement).bind fun _ _ => nests_pure trivial
  refine Nests.ite ?_ ?_
  · refine b.nests_writeSql.bind fun sql _ => nests_db.bind fun db _ => ?_
    exact (nests_statement _).bind fun _ _ => hbinds
  · refine (nests_onMembers (grown_preparedField _ _)).bind fun field _ => ?_
    exact nests_receiver.bind fun this _ => (nests_statement _).bind fun _ _ => hbinds

end BoundQuery

namespace EntityWrite

variable (w : EntityWrite)

theorem nests_takeStatement (acquired : List (String × String)) (p : EntityParam) :
    Nests k k (w.takeStatement acquired p) fun _ => True := by
  unfold takeStatement
  dsimp only
  split
  · exact nests_pure trivial
  · refine (nests_onMembers (grown_preparedField _ _)).bind fun field _ => ?_
    refine (nests_fresh _).bind fun statement _ => nests_receiver.bind fun this _ => ?_
    exact (nests_statement _).bind fun _ _ => nests_pure trivial

theorem nests_bindParam (p : EntityParam) (taken : String × List (String × String)) :
    Nests k k (w.bindParam p taken) fun r => WellNested r.1.bind.lines := by
  have hbinds : ∀ owner : String, Nests 0 0
      (((p.boundColumns w.kind).zipIdx 1).forM fun c =>
        c.1.binder.write taken.1 (toString c.2) (c.1.value owner)) fun _ => True :=
    fun owner => Nests.forM _ fun c _ => c.1.binder.nests_write taken.1 _ (c.1.value owner)
  unfold bindParam
  dsimp only
  split
  · refine Nests.bind ((nests_fresh "item").bind fun item _ => nests_pure trivial)
      fun item (_ : True) => (hbinds (item.getD p.name)).fork.bind fun bind hbind => ?_
    exact nests_pure hbind
  · refine Nests.bind (nests_pure trivial) fun item (_ : True) =>
      (hbinds (item.getD p.name)).fork.bind fun bind hbind => ?_
    exact nests_pure hbind

theorem nests_prepareParams (params : List EntityParam) (acquired : List (String × String)) :
    Nests k k (w.prepareParams acquired params) fun es => ∀ e ∈ es, WellNested e.bind.lines := by
  induction params generalizing acquired with
  | nil => exact nests_pure (by simp)
  | cons p rest ih =>
    have hparam : Nests k k (w.prepareParam acquired p) fun r => WellNested r.1.bind.lines := by
      rw [prepareParam_eq]
      exact (w.nests_takeStatement acquired p).bind fun taken _ => w.nests_bindParam p taken
    refine hparam.bind fun r hr => (ih r.2).bind fun es hes => nests_pure ?_
    exact List.forall_mem_cons.2 ⟨hr, hes⟩

theorem nests_prepare : Nests k k w.prepare NestedSource :=
  (w.nests_prepareParams w.params []).bind fun _ hes => nests_pure hes

end EntityWrite

end Statement

end DataAccess
