import DataAccess.Proofs.Code.Draft
import Mathlib.Data.List.Forall2
import Mathlib.Data.List.Infix

/-!
The lines that an action writes. No action takes back a line, so the lines of an action contain those
of its parts, and those of a fork contain them at another depth.
-/

set_option autoImplicit false

namespace DataAccess.Code

abbrev Line := Nat × String

/-- The lines of a block that is spliced in at a depth. -/
def sunken (depth : Nat) (lines : List Line) : List Line :=
  lines.map fun (n, text) => (depth + n, text)

theorem sunken_zero (lines : List Line) : sunken 0 lines = lines := by
  simp [sunken]

theorem sunken_sunken (m n : Nat) (lines : List Line) :
    sunken m (sunken n lines) = sunken (m + n) lines := by
  simp [sunken, Function.comp_def, Nat.add_assoc]

namespace Emit

variable {α β γ : Type}

/-- What was written before stays as it is. -/
def Appends (act : Emit α) : Prop := ∀ s : Scope, s.block.lines <+: (act.run s).2.block.lines

/-- The lines that an action adds. -/
def written (act : Emit α) (s : Scope) : List Line :=
  (act.run s).2.block.lines.drop s.block.lines.length

section Appends

variable {act : Emit α} {f : α → Emit β}

theorem Appends.lines_run (h : Appends act) (s : Scope) :
    (act.run s).2.block.lines = s.block.lines ++ written act s := by
  obtain ⟨lines, hlines⟩ := h s
  rw [written, ← hlines, List.drop_left]

theorem Appends.bind (hact : Appends act) (hf : ∀ a, Appends (f a)) : Appends (act >>= f) :=
  fun s => (hact s).trans (hf (act.run s).1 (act.run s).2)

theorem appends_pure (a : α) : Appends (pure a) := fun _ => List.prefix_rfl

theorem Appends.map (h : Appends act) (g : α → β) : Appends (g <$> act) :=
  h.bind fun a => appends_pure (g a)

theorem Appends.ite {p : Prop} [Decidable p] {x y : Emit α} (hx : Appends x) (hy : Appends y) :
    Appends (if p then x else y) := by
  split
  · exact hx
  · exact hy

theorem appends_realize (d : Draft α) : Appends d.realize := fun _ => List.prefix_append _ _

theorem appends_statement (text : String) : Appends (statement text) :=
  fun _ => List.prefix_append _ _

theorem appends_enter (header : String) : Appends (enter header) := fun _ => List.prefix_append _ _

theorem appends_next (header : String) : Appends (next header) := fun _ => List.prefix_append _ _

theorem appends_leave : Appends leave := fun _ => List.prefix_append _ _

theorem appends_splice (code : Block) : Appends (splice code) := fun _ => List.prefix_append _ _

theorem appends_fresh (wish : String) : Appends (fresh wish) := fun _ => List.prefix_rfl

theorem appends_receiver : Appends receiver := fun _ => List.prefix_rfl

theorem appends_onMembers (m : StateM ClassMembers α) : Appends (onMembers m) :=
  fun _ => List.prefix_rfl

theorem appends_fork (body : Emit Unit) : Appends (fork body) := fun _ => List.prefix_rfl

theorem Appends.mapM {f : α → Emit β} (hf : ∀ a, Appends (f a)) (as : List α) :
    Appends (as.mapM f) := by
  induction as with
  | nil => exact appends_pure []
  | cons a as ih =>
    rw [List.mapM_cons]
    exact (hf a).bind fun b => ih.bind fun bs => appends_pure (b :: bs)

theorem Appends.filterMapM {f : α → Emit (Option β)} (hf : ∀ a, Appends (f a)) (as : List α) :
    Appends (as.filterMapM f) := by
  induction as with
  | nil => exact appends_pure []
  | cons a as ih =>
    rw [List.filterMapM_cons]
    refine (hf a).bind fun b? => ?_
    cases b? with
    | none => exact ih
    | some b => exact ih.bind fun bs => appends_pure (b :: bs)

theorem written_statement (text : String) (s : Scope) :
    written (statement text) s = [(s.block.depth, text ++ ";")] := List.drop_left

theorem written_bind (hact : Appends act) (hf : ∀ a, Appends (f a)) (s : Scope) :
    written (act >>= f) s = written act s ++ written (f (act.run s).1) (act.run s).2 := by
  have hrun : (act >>= f).run s = (f (act.run s).1).run (act.run s).2 := rfl
  rw [written, hrun, (hf _).lines_run, hact.lines_run, List.append_assoc, List.drop_left]

theorem written_bind_pure (act : Emit α) (g : α → β) (s : Scope) :
    written (act >>= fun a => pure (g a)) s = written act s := rfl

/-- A loop writes what its steps write, each from where the one before it stopped. -/
theorem written_filterMapM_cons {f : α → Emit (Option β)} (hf : ∀ a, Appends (f a)) (a : α)
    (as : List α) (s : Scope) :
    written ((a :: as).filterMapM f) s =
      written (f a) s ++ written (as.filterMapM f) ((f a).run s).2 := by
  rw [List.filterMapM_cons]
  refine (written_bind (hf a) (fun b? => ?_) s).trans ?_
  · cases b? with
    | none => exact Appends.filterMapM hf as
    | some b => exact (Appends.filterMapM hf as).bind fun bs => appends_pure (b :: bs)
  · congr 1
    cases ((f a).run s).1 with
    | none => rfl
    | some b => exact written_bind_pure _ (b :: ·) _

end Appends

/-- The lines of a run of the action, at some depth. -/
def Occurs (part : Emit γ) (code : List Line) : Prop :=
  ∃ t depth, sunken depth (written part t) <:+: code

section Occurs

variable {act : Emit α} {f : α → Emit β} {part : Emit γ} {s : Scope} {code code' : List Line}

theorem Occurs.mono (h : Occurs part code) (hcode : code <:+: code') : Occurs part code' := by
  obtain ⟨t, depth, hpart⟩ := h
  exact ⟨t, depth, hpart.trans hcode⟩

theorem Occurs.sunken (h : Occurs part code) (depth : Nat) : Occurs part (sunken depth code) := by
  obtain ⟨t, n, hpart⟩ := h
  refine ⟨t, depth + n, ?_⟩
  rw [← sunken_sunken]
  exact hpart.map _

theorem occurs_written (act : Emit α) (s : Scope) : Occurs act (written act s) :=
  ⟨s, 0, by rw [sunken_zero]⟩

theorem Occurs.first (h : Occurs part (written act s)) (hact : Appends act)
    (hf : ∀ a, Appends (f a)) : Occurs part (written (act >>= f) s) := by
  rw [written_bind hact hf]
  exact h.mono (List.prefix_append _ _).isInfix

theorem Occurs.after (hact : Appends act) (hf : ∀ a, Appends (f a))
    (h : Occurs part (written (f (act.run s).1) (act.run s).2)) :
    Occurs part (written (act >>= f) s) := by
  rw [written_bind hact hf]
  exact h.mono (List.suffix_append _ _).isInfix

/-- What a fork writes stands where its block is spliced in. -/
theorem Occurs.splice {body : Emit Unit} {t : Scope}
    (h : Occurs part (written body { s with block := {} })) :
    Occurs part (written (Emit.splice ((fork body).run s).1) t) := by
  have hlines : written (Emit.splice ((fork body).run s).1) t =
      Code.sunken t.block.depth (written body { s with block := {} }) := List.drop_left
  rw [hlines]
  exact h.sunken _

/-- Every step of a loop gives its result, and its lines stand among those of the loop. -/
theorem forall₂_mapM {f : α → Emit β} (hf : ∀ a, Appends (f a)) (as : List α) (s : Scope) :
    List.Forall₂ (fun a b => ∃ t, b = ((f a).run t).1 ∧ written (f a) t <:+: written (as.mapM f) s)
      as ((as.mapM f).run s).1 := by
  induction as generalizing s with
  | nil => exact .nil
  | cons a as ih =>
    let t := ((f a).run s).2
    have hrun : (((a :: as).mapM f).run s).1 = ((f a).run s).1 :: ((as.mapM f).run t).1 := by
      rw [List.mapM_cons]
      rfl
    have hwritten : written ((a :: as).mapM f) s = written (f a) s ++ written (as.mapM f) t := by
      have hrest : ∀ b, Appends (as.mapM f >>= fun bs => pure (b :: bs)) :=
        fun b => (Appends.mapM hf as).bind fun bs => appends_pure (b :: bs)
      rw [List.mapM_cons, written_bind (hf a) hrest]
      rfl
    rw [hrun, hwritten]
    refine .cons ⟨s, rfl, (List.prefix_append _ _).isInfix⟩ ((ih t).imp fun a b h => ?_)
    obtain ⟨t', hb, hinfix⟩ := h
    exact ⟨t', hb, hinfix.trans (List.suffix_append _ _).isInfix⟩

end Occurs

end Emit

end DataAccess.Code
