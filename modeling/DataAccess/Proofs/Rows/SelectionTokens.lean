import DataAccess.Proofs.Rows.Pruning
import DataAccess.Proofs.Sql.TokenPositions

/-!
The tokens of a selection of columns from a query: those of its lead, those of the query and the
closing parenthesis. A line comment at the end of the query takes that parenthesis in; such a query
is not narrowed.
-/

set_option autoImplicit false

namespace DataAccess

namespace Sql

theorem map_unplaced_tokensFrom (p : Position) (xs : List Lexeme) :
    (tokensFrom p xs).map Token.unplaced = xs.map Token.ofLexeme := by
  induction xs generalizing p with
  | nil => rfl
  | cons x xs ih =>
    have hrest := ih (p.after x.text)
    simp only [tokensFrom] at hrest ⊢
    simp only [placed, List.map_cons, hrest]
    rfl

/-- A comment up to the end of its line; the other comments start with a slash. -/
def Token.isLineComment (t : Token) : Bool := t.kind = .comment && t.text.toList.head? = some '-'

/-- The text ends inside a line comment. -/
def EndsInLineComment (text : String) : Prop :=
  (tokenize text).tokens.getLast?.any Token.isLineComment = true

instance (text : String) : Decidable (EndsInLineComment text) :=
  inferInstanceAs (Decidable (_ = true))

theorem endsInLineComment_iff (text : String) :
    EndsInLineComment text ↔
      ∃ x, (lexemes text.toList).getLast? = some x ∧ x.isLineComment = true := by
  have htoken : ∀ t : Token, t.unplaced.isLineComment = t.isLineComment := fun _ => rfl
  have hlexeme : ∀ x, (Token.ofLexeme x).isLineComment = x.isLineComment := by
    intro x
    simp only [Token.isLineComment, Token.ofLexeme, String.toList_ofList]
    rfl
  have hlast := congrArg (fun ts => ts.getLast?.any Token.isLineComment) (map_unplaced_tokenize text)
  simp only [List.getLast?_map, Option.any_map, htoken, hlexeme] at hlast
  rw [EndsInLineComment, hlast]
  cases (lexemes text.toList).getLast? <;> simp

end Sql

namespace Rows

open Sql

section Plain

variable {columns : List String} (hplain : ∀ c ∈ columns, '`' ∉ c.toList)
include hplain

theorem tokenize_selectionLead :
    (tokenize (selectionLead columns)).tokens =
      tokensFrom {} (selectionLexemes columns ++ [opening]) := by
  have hlexemes := lexemes_selectionLead [] hplain
  rw [List.append_nil] at hlexemes
  have hnil : lexemes [] = [] := by rw [lexemes]
  rw [tokenize, hlexemes, hnil]
  rfl

theorem tokens_selectionFrom {text : String} (htext : Wellformed (lexemes text.toList))
    (hopen : ¬EndsInLineComment text) :
    ∃ inner close, (tokenize (selectionFrom columns text)).tokens =
        (tokenize (selectionLead columns)).tokens ++ inner ++ [close] ∧
      inner.map Token.unplaced = (tokenize text).tokens.map Token.unplaced ∧
      close.kind = .rParen ∧ close.text = ")" := by
  have hlast : ∀ x, (lexemes text.toList).getLast? = some x → x.isLineComment = false := by
    intro x hx
    cases hc : x.isLineComment with
    | false => rfl
    | true => exact absurd ((endsInLineComment_iff text).2 ⟨x, hx, hc⟩) hopen
  have hlexemes := lexemes_selectionFrom_of_open hplain htext hlast
  have henclosed : enclosed columns (lexemes text.toList) =
      (selectionLexemes columns ++ [opening]) ++ lexemes text.toList ++ [closing] := by
    simp [enclosed]
  have htokens : (tokenize (selectionFrom columns text)).tokens =
      tokensFrom {} (enclosed columns (lexemes text.toList)) := by
    rw [← hlexemes]
    rfl
  rw [htokens, henclosed, tokensFrom_append, tokensFrom_append, ← tokenize_selectionLead hplain]
  refine ⟨_, ⟨.rParen, ")", _⟩, rfl, ?_, rfl, rfl⟩
  rw [map_unplaced_tokensFrom, map_unplaced_tokenize]

theorem wellformed_selectionFrom_iff {text : String} (htext : Wellformed (lexemes text.toList)) :
    Wellformed (lexemes (selectionFrom columns text).toList) ↔ ¬EndsInLineComment text := by
  rw [endsInLineComment_iff]
  constructor
  · exact fun h hlast => not_wellformed_selectionFrom hplain htext hlast h
  · intro hopen
    have hlast : ∀ x, (lexemes text.toList).getLast? = some x → x.isLineComment = false :=
      fun x hx => Bool.eq_false_iff.2 fun hc => hopen ⟨x, hx, hc⟩
    rw [lexemes_selectionFrom_of_open hplain htext hlast]
    exact wellformed_enclosed columns htext

theorem binds_selectionFrom {text : String} (htext : Wellformed (lexemes text.toList))
    (hopen : ¬EndsInLineComment text) (grammar grammar' : List Char → Option Summary) :
    (Query.parseWith grammar (selectionFrom columns text)).binds =
      (Query.parseWith grammar' text).binds := by
  have hwhole := (wellformed_selectionFrom_iff hplain htext).2 hopen
  rw [parseWith_binds, parseWith_binds, lexemes_selectionFrom_of_wellformed hplain htext hwhole,
    bindsOf_enclosed]

end Plain

/-- A selection of plainly named columns from a text without errors. The text keeps its tokens and its
placeholders between the parentheses, unless it ends inside a line comment: then the selection has an
error, and a query of that text is not narrowed to these columns. -/
theorem tokenize_selectionFrom (text : String) {columns : List String}
    (hplain : ∀ c ∈ columns, '`' ∉ c.toList) (herrors : (tokenize text).errors = []) :
    (¬EndsInLineComment text →
      (tokenize (selectionFrom columns text)).errors = [] ∧
      (∃ inner close, (tokenize (selectionFrom columns text)).tokens =
          (tokenize (selectionLead columns)).tokens ++ inner ++ [close] ∧
        inner.map Token.unplaced = (tokenize text).tokens.map Token.unplaced ∧
        close.kind = .rParen ∧ close.text = ")") ∧
      ∀ grammar grammar',
        let query := Query.parseWith grammar text
        let selection := Query.parseWith grammar' (selectionFrom columns text)
        selection.binds = query.binds ∧ selection.bindTargets = query.bindTargets) ∧
    (EndsInLineComment text →
      (tokenize (selectionFrom columns text)).errors ≠ [] ∧
      ∀ grammar (query : Query) (row : Row), query.original = text →
        (∀ record, row.record? = some record → record.mapping.usedColumns = columns) →
        pruneWith grammar query row = query) := by
  have htext := (tokenize_errors_eq_nil_iff text).1 herrors
  have hwhole := wellformed_selectionFrom_iff hplain htext
  rw [← tokenize_errors_eq_nil_iff] at hwhole
  refine ⟨fun hopen => ⟨hwhole.2 hopen, tokens_selectionFrom hplain htext hopen, ?_⟩, fun hends => ?_⟩
  · intro grammar grammar' query selection
    have hbinds : selection.binds = query.binds :=
      binds_selectionFrom hplain htext hopen grammar' grammar
    exact ⟨hbinds, by rw [Query.bindTargets, hbinds, Query.bindTargets]⟩
  · have hfails : (tokenize (selectionFrom columns text)).errors ≠ [] :=
      fun h => hwhole.1 h hends
    refine ⟨hfails, fun grammar query row horiginal hrow => ?_⟩
    by_contra hne
    obtain ⟨kept, hkept, hpruned, -⟩ := pruneWith_cases hne
    obtain ⟨record, _, hrecord, -, -, -, -, rfl⟩ := keptColumns?_cases hkept
    rw [horiginal, hrow record hrecord] at hpruned
    exact hfails ((tokenize_errors_eq_nil_iff _).2 ((parseWith_errors_eq_nil_iff grammar).1 hpruned).1)

/-- The placeholder of one text survives the selection; the other text, which ends in a comment, stays
as it is. -/
theorem tokenize_selectionFrom_users :
    let selection := Query.parse (selectionFrom ["id", "name"] "SELECT * FROM user WHERE id = :id")
    let commented := { Query.parse "SELECT * FROM user -- all" with
      resultInfo := some { columns := [⟨"id", none⟩, ⟨"name", none⟩, ⟨"age", none⟩] } }
    selection.binds = [(":id", some "id")] ∧ selection.bindTargets = [.named "id"] ∧
      (tokenize (selectionFrom ["id", "name"] commented.original)).errors ≠ [] ∧
      pruneWith Grammar.summary? commented partialRow = commented := by
  intro selection commented
  have hplain : ∀ c ∈ ["id", "name"], '`' ∉ c.toList := by decide
  have hwhere := (tokenize_selectionFrom "SELECT * FROM user WHERE id = :id" hplain
    (by decide +kernel)).1 (by decide +kernel)
  have hcomment := (tokenize_selectionFrom "SELECT * FROM user -- all" hplain
    (by decide +kernel)).2 (by decide +kernel)
  obtain ⟨hbinds, htargets⟩ := hwhere.2.2 Grammar.summary? Grammar.summary?
  have hrow : ∀ record, partialRow.record? = some record →
      record.mapping.usedColumns = ["id", "name"] := by
    intro record h
    obtain rfl := Option.some.inj h
    rfl
  exact ⟨hbinds.trans (by decide +kernel), htargets.trans (by decide +kernel), hcomment.1,
    hcomment.2 Grammar.summary? commented partialRow rfl hrow⟩

end Rows

end DataAccess
