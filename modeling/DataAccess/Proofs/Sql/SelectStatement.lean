import DataAccess.Proofs.Sql.ReaderSteps
import DataAccess.Sql.Grammar.Statement

/-!
A text that starts with the word `SELECT` is a selection or nothing at all to the statement grammar.
-/

set_option autoImplicit false

namespace DataAccess.Sql.Grammar

open Reader

/-- The word that starts a selection. -/
def selectSymbol : Symbol := .word "SELECT" true

theorem next?_select (rest : List Char) :
    next? 'S' ('E' :: 'L' :: 'E' :: 'C' :: 'T' :: ' ' :: rest) =
      some (some selectSymbol, ' ' :: rest) := by
  have hoperator : operators.find?
      (·.toList.isPrefixOf ('S' :: 'E' :: 'L' :: 'E' :: 'C' :: 'T' :: ' ' :: rest)) = none := by
    rfl
  unfold next?
  simp only [hoperator]
  rfl

theorem symbols?_select {rest : List Char} {symbols : List Symbol}
    (h : symbols? ('S' :: 'E' :: 'L' :: 'E' :: 'C' :: 'T' :: ' ' :: rest) = some symbols) :
    ∃ tail, symbols = selectSymbol :: tail := by
  simp only [symbols?, List.length_cons, symbolsWithin, next?_select] at h
  obtain ⟨tail, -, rfl⟩ := Option.map_eq_some_iff.1 h
  exact ⟨tail, rfl⟩

/-- What a reader answers when it succeeds. -/
def Answers {α : Type} (r : Reader α) (s : State) (a : α) : Prop :=
  ∀ b s', r s = .ok (b, s') → b = a

section Answers

variable {α β : Type} {r : Reader α} {f : α → Reader β} {s : State} {b : β}

theorem ok_of_bind {s' : State} (h : (r >>= f) s = .ok (b, s')) :
    ∃ a t, r s = .ok (a, t) ∧ f a t = .ok (b, s') := by
  change (r s >>= fun p => f p.1 p.2) = _ at h
  cases hr : r s with
  | error e => simp [hr, bind, Except.bind] at h
  | ok p => exact ⟨p.1, p.2, rfl, by simpa [hr, bind, Except.bind] using h⟩

theorem Answers.bind_const (h : ∀ a t, Answers (f a) t b) : Answers (r >>= f) s b := by
  intro c s' hc
  obtain ⟨a, t, -, hf⟩ := ok_of_bind hc
  exact h a t c s' hf

theorem Answers.pure_const (a : α) (s : State) : Answers (pure a) s a := by
  intro b s' h
  cases h
  rfl

theorem Answers.bind_of_eq {a : α} (hr : r s = .ok (a, s)) (h : Answers (f a) s b) :
    Answers (r >>= f) s b := by
  intro c s' hc
  obtain ⟨a', t, ha, hf⟩ := ok_of_bind hc
  obtain ⟨rfl, rfl⟩ := Prod.mk.inj (Except.ok.inj (hr.symm.trans ha))
  exact h c s' hf

theorem Answers.asQuery {a : α} (h : Answers r { rest := s.rest } a) : Answers (asQuery r) s a := by
  intro b s' hb
  change (r { rest := s.rest } >>= _) = _ at hb
  cases hr : r { rest := s.rest } with
  | error e => exact absurd (hr ▸ hb) nofun
  | ok p =>
    rw [hr] at hb
    obtain ⟨rfl, -⟩ := Prod.mk.inj (Except.ok.inj hb)
    exact h p.1 p.2 hr

end Answers

section Select

variable {s : State} (hs : s.rest.head? = some selectSymbol)
include hs

theorem keyword_select {k : String} (hk : Text.sameWord "SELECT" k = false) :
    keyword k s = .ok (false, s) := by
  refine keyword_declines ?_
  rw [hs]
  exact hk

theorem operator_select (op : String) : operator op s = .ok (false, s) := by
  refine operator_declines ?_
  rw [hs]
  exact nofun

theorem many_operator_select (op : String) (n : Nat) : many (operator op) n s = .ok ((), s) := by
  cases n with
  | zero => rfl
  | succ n =>
    rw [many, bind_run (operator_select hs op)]
    rfl

theorem withList_select (nested : Rules) : nested.withList s = .ok ((), s) := by
  rw [Rules.withList, bind_run (keyword_select hs (by decide))]
  rfl

theorem queryOrWrite_select (nested : Rules) : Answers nested.queryOrWrite s .select := by
  refine Answers.asQuery ?_
  have hs : ({ rest := s.rest } : State).rest.head? = some selectSymbol := hs
  refine Answers.bind_of_eq (withList_select hs nested) ?_
  refine Answers.bind_of_eq (keyword_select hs (by decide)) ?_
  refine Answers.bind_of_eq (keyword_select hs (by decide)) ?_
  exact Answers.bind_const fun _ t => Answers.pure_const _ t

theorem peekAnyKeyword_select :
    peekAnyKeyword ["SELECT", "WITH", "VALUES"] s = .ok (true, s) := by
  rw [peekAnyKeyword_run, hs]
  rfl

theorem oneStatement_select (depth : Nat) : Answers (oneStatement (depth + 1)) s .select := by
  unfold oneStatement
  refine Answers.bind_of_eq (a := s.rest.length) rfl ?_
  refine Answers.bind_of_eq (many_operator_select hs ";" _) ?_
  intro c s' hc
  obtain ⟨k, t, hk, hc⟩ := ok_of_bind hc
  have hkind : k = .select := by
    refine Answers.bind_of_eq (peekAnyKeyword_select hs) ?_ k t hk
    exact queryOrWrite_select hs _
  subst hkind
  refine Answers.bind_const (fun a u => ?_) c s' hc
  dsimp only
  split
  · exact Answers.pure_const _ u
  · refine Answers.bind_const fun n v => Answers.bind_const fun _ w => Answers.bind_const fun m x => ?_
    split
    · exact Answers.pure_const _ x
    · exact Answers.bind_const fun _ y => Answers.pure_const _ y

end Select

theorem read?_select {rest : List Char} {kind : StatementKind} {mentions : Mentions}
    (h : read? ('S' :: 'E' :: 'L' :: 'E' :: 'C' :: 'T' :: ' ' :: rest) = some (kind, mentions)) :
    kind = .select := by
  unfold read? at h
  cases hsymbols : symbols? ('S' :: 'E' :: 'L' :: 'E' :: 'C' :: 'T' :: ' ' :: rest) with
  | none => simp [hsymbols] at h
  | some symbols =>
    obtain ⟨tail, rfl⟩ := symbols?_select hsymbols
    simp only [hsymbols] at h
    cases hrun : (oneStatement (maxDepth - 1)).run { rest := selectSymbol :: tail } with
    | error e => simp [hrun] at h
    | ok result =>
      simp only [hrun, Option.some.injEq, Prod.mk.injEq] at h
      rw [← h.1]
      exact oneStatement_select rfl 48 _ _ hrun

/-- A text that starts with `SELECT` is a selection. -/
theorem summary?_select {rest : List Char} {summary : Summary}
    (h : summary? ('S' :: 'E' :: 'L' :: 'E' :: 'C' :: 'T' :: ' ' :: rest) = some summary) :
    summary.kind = .select := by
  obtain ⟨⟨kind, mentions⟩, hread, rfl⟩ := Option.map_eq_some_iff.1 h
  exact read?_select hread

end DataAccess.Sql.Grammar
