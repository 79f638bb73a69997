import DataAccess.Proofs.Statement.PlainBinding
import Mathlib.Tactic.IntervalCases

/-!
What a line of generated code does with the database. A line is told by how it starts, since what
follows may hold any text of a user's: a type, a name or a literal.
-/

set_option autoImplicit false

namespace DataAccess.Delivery

open Code Emit Rows Statement
open ClassMembers (numbered)

/-- The expression for the object: in a method, or a copy of it in a closure. -/
def IsObject (object : String) : Prop := object = "self" ∨ ∃ n, object = numbered "_this" n

/-- The variable for the outcome of a write. -/
def IsOutcome (x : String) : Prop := ∃ base ∈ ["_result", "_total"], ∃ n, x = numbered base n

/-- The line that begins a transaction on the database of an object. -/
def beginLine (n : Nat) (object : String) : String :=
  "let " ++ numbered "_transaction" n ++ " = TransactionGuard::begin(&" ++ object ++ ".db);"

/-- The line that marks a transaction to be kept. -/
def successLine (object : String) : String := object ++ ".db.set_transaction_successful();"

/-- The line begins a transaction, whether or not a variable holds it. -/
def Begins (text : String) : Prop :=
  Starts "TransactionGuard::begin(" text ∨
    ∃ n, Starts ("let " ++ numbered "_transaction" n ++ " = TransactionGuard::begin(") text

/-- The line marks the transaction of an object to be kept. -/
def Succeeds (text : String) : Prop := ∃ object, IsObject object ∧ text = successLine object

/-- The line queries the database, and its cursor is released with the scope. -/
def QueriesGuarded (text : String) : Prop :=
  ∃ n, Starts ("let " ++ numbered "_cursor" n ++ " = CursorGuard::new(db_util::query(") text

/-- The line queries the database. -/
def Queries (text : String) : Prop :=
  Starts "db_util::query(" text ∨
    (∃ n, Starts ("let " ++ numbered "_cursor" n ++ " = db_util::query(") text) ∨
    QueriesGuarded text

/-- The line runs a statement, and may keep or add up the outcome. -/
def Executes (text : String) : Prop :=
  ∃ statement, IsStatement statement ∧
    (Starts (statement ++ ".execute") text ∨
      ∃ x, IsOutcome x ∧ ∃ lead ∈ ["let " ++ x ++ " = ", x ++ " += ", x ++ ".push("],
        Starts (lead ++ statement ++ ".execute") text)

/-- The line has nothing to do with a transaction and queries nothing. -/
structure Quiet (text : String) : Prop where
  not_begins : ¬Begins text
  not_succeeds : ¬Succeeds text
  not_queries : ¬Queries text

/-- The line does not run a statement either. -/
structure Idle (text : String) : Prop extends Quiet text where
  not_executes : ¬Executes text

theorem mem_digits {c : Char} (h : c.isDigit = true) : c ∈ "0123456789".toList := by
  simp only [Char.isDigit, Bool.and_eq_true, decide_eq_true_eq, ge_iff_le] at h
  have hlow : 48 ≤ c.toNat := UInt32.le_iff_toNat_le.1 h.1
  have hhigh : c.toNat ≤ 57 := UInt32.le_iff_toNat_le.1 h.2
  rw [← Char.ofNat_toNat c]
  interval_cases c.toNat <;> decide

/-- How a numbered name and the sign behind it start. -/
def assigned (base : String) : List String :=
  (base ++ " = ") :: "0123456789".toList.map fun c => base ++ "_" ++ String.singleton c

theorem opens_numbered (base : String) {rest : String} (hrest : Starts " = " rest) (n : Nat) :
    Opens (assigned base) (numbered base n ++ rest) := by
  cases n with
  | zero => exact ⟨_, List.mem_cons_self, hrest.behind base⟩
  | succ n =>
    have hne : (toString (n + 1)).toList ≠ [] := by simp [Nat.toString_eq_repr]
    obtain ⟨c, cs, hchars⟩ := List.exists_cons_of_ne_nil hne
    have hmem : c ∈ (toString (n + 1)).toList := by rw [hchars]; exact List.mem_cons_self
    have hdigit := mem_digits (isDigit_of_mem_toString hmem)
    have hfirst : Starts (String.singleton c) (toString (n + 1)) := by
      rw [Starts, hchars, String.toList_singleton]
      exact List.prefix_append [c] cs
    exact ⟨_, List.mem_cons_of_mem _ (List.mem_map_of_mem hdigit),
      (hfirst.behind (base ++ "_")).append _⟩

def beginMarks : List String := "TransactionGuard::begin(" :: ["_transaction"].map ("let " ++ ·)

def successMarks : List String := ["self.db.set_", "_this"]

def cursorMarks : List String := (assigned "_cursor").map ("let " ++ ·)

def outcomeNames : List String := ["_result", "_total"]

def executeMarks : List String :=
  statementNames ++ (outcomeNames ++ outcomeNames.map ("let " ++ ·))

/-- How lines start that are not quiet. -/
def loudMarks : List String := beginMarks ++ successMarks ++ "db_util::query(" :: cursorMarks

/-- No line both begins a transaction and marks one, nor does one of these query the database. -/
theorem marks_apart : Apart beginMarks successMarks ∧
    Apart (beginMarks ++ successMarks) ("db_util::query(" :: cursorMarks) := by decide +kernel

variable {names heads : List String} {text object : String}

theorem IsObject.opens (h : IsObject object) : Opens ["self", "_this"] object := by
  obtain rfl | ⟨n, rfl⟩ := h
  · exact ⟨_, by simp, List.prefix_rfl⟩
  · exact ⟨_, by simp, starts_numbered _ n⟩

theorem IsOutcome.opens {x : String} (h : IsOutcome x) : Opens outcomeNames x := by
  obtain ⟨base, hbase, n, rfl⟩ := h
  exact ⟨base, hbase, starts_numbered base n⟩

theorem Begins.opens (h : Begins text) : Opens beginMarks text := by
  obtain h | ⟨n, h⟩ := h
  · exact ⟨_, List.mem_cons_self, h⟩
  · have hname : Opens ["_transaction"] (numbered "_transaction" n) :=
      ⟨_, List.mem_cons_self, starts_numbered _ n⟩
    exact (((hname.behind "let ").append _).trans h).mono (List.subset_cons_self _ _)

theorem Succeeds.opens (h : Succeeds text) : Opens successMarks text := by
  obtain ⟨object, rfl | ⟨n, rfl⟩, rfl⟩ := h
  · exact ⟨_, List.mem_cons_self, by decide⟩
  · exact ⟨"_this", by simp [successMarks], (starts_numbered _ n).append _⟩

theorem opens_cursorMarks {rest : String} {n : Nat} (hrest : Starts " = " rest)
    (h : Starts ("let " ++ numbered "_cursor" n ++ rest) text) : Opens cursorMarks text := by
  rw [String.append_assoc] at h
  exact ((opens_numbered "_cursor" hrest n).behind "let ").trans h

theorem QueriesGuarded.opens (h : QueriesGuarded text) : Opens cursorMarks text := by
  obtain ⟨n, h⟩ := h
  exact opens_cursorMarks (by decide) h

theorem Queries.opens (h : Queries text) : Opens ("db_util::query(" :: cursorMarks) text := by
  obtain h | ⟨n, h⟩ | h := h
  · exact ⟨_, List.mem_cons_self, h⟩
  · exact (opens_cursorMarks (by decide) h).mono (List.subset_cons_self _ _)
  · exact h.opens.mono (List.subset_cons_self _ _)

theorem Executes.cases (h : Executes text) :
    (∃ statement, IsStatement statement ∧ Starts (statement ++ ".execute") text) ∨
      Opens (outcomeNames ++ outcomeNames.map ("let " ++ ·)) text := by
  obtain ⟨statement, hstatement, h | ⟨x, hx, lead, hlead, h⟩⟩ := h
  · exact .inl ⟨statement, hstatement, h⟩
  · refine .inr (Opens.trans ?_ h)
    simp only [List.mem_cons, List.not_mem_nil, or_false] at hlead
    refine Opens.append (Opens.append ?_ _) _
    obtain rfl | rfl | rfl := hlead
    · exact ((hx.opens.behind "let ").append _).mono (List.subset_append_right _ _)
    · exact (hx.opens.append _).mono (List.subset_append_left _ _)
    · exact (hx.opens.append _).mono (List.subset_append_left _ _)

theorem Executes.opens (h : Executes text) : Opens executeMarks text := by
  obtain ⟨statement, hstatement, h⟩ | h := h.cases
  · exact ((hstatement.opens.append _).trans h).mono (List.subset_append_left _ _)
  · exact h.mono (List.subset_append_right _ _)

theorem quiet_of_opens (h : Opens heads text) (hapart : Apart heads loudMarks) : Quiet text where
  not_begins hbegins := h.not_opens hapart (hbegins.opens.mono (by simp [loudMarks]))
  not_succeeds hsucceeds := h.not_opens hapart (hsucceeds.opens.mono (by simp [loudMarks]))
  not_queries hqueries := h.not_opens hapart (hqueries.opens.mono (by simp [loudMarks]))

theorem idle_of_opens (h : Opens heads text) (hapart : Apart heads (loudMarks ++ executeMarks)) :
    Idle text where
  toQuiet := quiet_of_opens h (hapart.mono (List.subset_append_left _ _))
  not_executes hexecutes :=
    h.not_opens hapart (hexecutes.opens.mono (List.subset_append_right _ _))

end DataAccess.Delivery
