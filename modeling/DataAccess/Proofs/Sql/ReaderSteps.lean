import DataAccess.Sql.Grammar.Reader

/-!
One step of a reader at a symbol that it takes or declines.
-/

set_option autoImplicit false

namespace DataAccess.Sql.Grammar.Reader

theorem Symbol.isKeyword_of_isKeyword {x : Symbol} {k : String} (h : Symbol.isKeyword x k = true)
    (k' : String) : Symbol.isKeyword x k' = Text.sameWord k k' := by
  cases x with
  | word value bare =>
    cases bare with
    | false => exact absurd h nofun
    | true =>
      have hword : value.toList.map Char.toLower = k.toList.map Char.toLower := by
        simpa [Symbol.isKeyword, Text.sameWord] using h
      simp [Symbol.isKeyword, Text.sameWord, hword]
  | _ => exact absurd h nofun

section Run

variable {α β : Type} {r : Reader α} {f : α → Reader β} {s t : State} {a : α}

theorem bind_run (h : r s = .ok (a, t)) : (r >>= f) s = f a t := by
  change (r s >>= fun p => f p.1 p.2) = _
  rw [h]
  rfl

theorem remaining_run (s : State) : remaining s = .ok (s.rest.length, s) := rfl

theorem peek?_run (s : State) : peek? s = .ok (s.rest.head?, s) := rfl

/-- A reader that declines leaves the place to what stands after it. -/
theorem bind_declined {r : Reader Bool} {taken declined : Reader α} (h : r s = .ok (false, t)) :
    (r >>= fun hit => if hit then taken else declined) s = declined t := by
  rw [bind_run h]
  rfl

theorem get_run (s : State) : (get : Reader State) s = .ok (s, s) := rfl

theorem keywords_declines {k : String} (h : s.rest.head?.any (Symbol.isKeyword · k) = false)
    (ks : List String) : keywords (k :: ks) s = .ok (false, s) := by
  rw [keywords, bind_run (get_run s)]
  cases hrest : s.rest with
  | nil => rfl
  | cons x rest =>
    have hx : Symbol.isKeyword x k = false := by simpa [hrest] using h
    simp only [List.zip_cons_cons, List.all_cons, hx, Bool.false_and, Bool.and_false]
    rfl

theorem keyword_declines {k : String} (h : s.rest.head?.any (Symbol.isKeyword · k) = false) :
    keyword k s = .ok (false, s) := keywords_declines h []

theorem keyword_takes {x : Symbol} {rest : List Symbol} {k : String} (hs : s.rest = x :: rest)
    (h : Symbol.isKeyword x k = true) : keyword k s = .ok (true, { s with rest }) := by
  have hskip : skip 1 s = .ok ((), { s with rest }) := by
    obtain ⟨_, mentions, commonTables⟩ := s
    subst hs
    rfl
  have hlength : [k].length ≤ (x :: rest).length := by simp
  rw [keyword, keywords, bind_run (get_run s), hs]
  simp only [hlength, decide_true, List.zip_cons_cons, List.zip_nil_left, List.all_cons, List.all_nil,
    h, Bool.and_self, ↓reduceIte]
  exact bind_run hskip

theorem expectKeyword_takes {x : Symbol} {rest : List Symbol} {k : String} (hs : s.rest = x :: rest)
    (h : Symbol.isKeyword x k = true) : expectKeyword k s = .ok ((), { s with rest }) := by
  rw [expectKeyword, bind_run (keyword_takes hs h)]
  rfl

theorem peekAnyKeyword_run (ks : List String) :
    peekAnyKeyword ks s = .ok (s.rest.head?.any fun x => ks.any (Symbol.isKeyword x), s) := rfl

theorem peekKeyword_run (k : String) :
    peekKeyword k s = .ok (s.rest.head?.any (Symbol.isKeyword · k), s) := rfl

theorem peekAnyKeyword_declines {ks : List String}
    (h : ∀ k ∈ ks, s.rest.head?.any (Symbol.isKeyword · k) = false) :
    peekAnyKeyword ks s = .ok (false, s) := by
  rw [peekAnyKeyword_run]
  cases hx : s.rest.head? with
  | none => rfl
  | some x =>
    have hany : ks.any (Symbol.isKeyword x) = false := by simpa [hx] using h
    rw [Option.any_some, hany]

theorem oneOf_declines {ks : List String}
    (h : ∀ k ∈ ks, s.rest.head?.any (Symbol.isKeyword · k) = false) :
    oneOf ks s = .ok (false, s) := by
  rw [oneOf, bind_run (peekAnyKeyword_declines h)]
  rfl

theorem operator_declines {op : String} (h : s.rest.head? ≠ some (.operator op)) :
    operator op s = .ok (false, s) := by
  rw [operator, bind_run (peek?_run s)]
  simp only [h, decide_false]
  rfl

theorem operator_takes {op : String} {rest : List Symbol} (hs : s.rest = .operator op :: rest) :
    operator op s = .ok (true, { s with rest }) := by
  obtain ⟨_, mentions, commonTables⟩ := s
  subst hs
  rw [operator, bind_run (peek?_run _)]
  simp only [List.head?_cons, decide_true, ↓reduceIte]
  rfl

end Run

/-- The next symbol is one of some operators or keywords, or there is none. -/
inductive Stops (ops words : List String) : List Symbol → Prop where
  | nil : Stops ops words []
  | operator {op : String} (h : op ∈ ops) (rest : List Symbol) :
    Stops ops words (.operator op :: rest)
  | keyword {x : Symbol} {w : String} (hw : w ∈ words) (hx : Symbol.isKeyword x w = true)
    (rest : List Symbol) : Stops ops words (x :: rest)

namespace Stops

variable {ops words : List String} {rest : List Symbol}

theorem declines_keyword (h : Stops ops words rest) {k : String}
    (hk : ∀ w ∈ words, Text.sameWord w k = false) :
    rest.head?.any (Symbol.isKeyword · k) = false := by
  cases h with
  | nil => rfl
  | operator hop rest => rfl
  | keyword hw hx rest =>
    rw [List.head?_cons, Option.any_some, Symbol.isKeyword_of_isKeyword hx]
    exact hk _ hw

theorem declines_operator (h : Stops ops words rest) {op : String} (hop : op ∉ ops) :
    rest.head? ≠ some (.operator op) := by
  cases h with
  | nil => exact nofun
  | operator hmem rest =>
    intro heq
    obtain ⟨rfl⟩ := heq
    exact hop hmem
  | keyword hw hx rest =>
    rintro ⟨rfl⟩
    exact absurd hx nofun

theorem mono {ops' words' : List String} (h : Stops ops words rest) (hops : ops ⊆ ops')
    (hwords : words ⊆ words') : Stops ops' words' rest := by
  cases h with
  | nil => exact .nil
  | operator hop rest => exact .operator (hops hop) rest
  | keyword hw hx rest => exact .keyword (hwords hw) hx rest

/-- No name for a table stands where its words are all reserved. -/
theorem aliasName_declines {reserved : List String} (h : Stops ops words rest)
    (hreserved : words ⊆ reserved) (has : ∀ w ∈ words, Text.sameWord w "AS" = false)
    (mentions : Mentions) (commonTables : List String) :
    aliasName reserved ⟨rest, mentions, commonTables⟩ = .ok (false, ⟨rest, mentions, commonTables⟩) := by
  rw [aliasName, bind_declined (keyword_declines (h.declines_keyword has))]
  cases h with
  | nil => rfl
  | operator hop rest => rfl
  | @keyword x w hw hx rest =>
    have hany : reserved.any (Symbol.isKeyword x) = true :=
      List.any_eq_true.2 ⟨w, hreserved hw, hx⟩
    cases x with
    | word value bare =>
      cases bare with
      | false => exact absurd hx nofun
      | true =>
        rw [bind_run (peek?_run _)]
        simp only [List.head?_cons, hany, ↓reduceIte]
        rfl
    | _ => exact absurd hx nofun

end Stops

end DataAccess.Sql.Grammar.Reader
