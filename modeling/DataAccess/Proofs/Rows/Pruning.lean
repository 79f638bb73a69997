import DataAccess.Proofs.Rows.Selection
import Mathlib

/-!
What a narrowed query reads. It is a selection, and the grammar finds the tables of its source. Where
the grammar refuses it the keywords decide, which no longer know a leading `WITH`: the names of
common tables then pass for tables.
-/

set_option autoImplicit false

namespace DataAccess

namespace Sql.KeywordScan

/-- A text whose tables do not depend on where it stands: no common table goes by the name of a table
it puts after a keyword, and it does not start with a name of its own. -/
structure IsOpen (tokens : List Token) : Prop where
  shown : ∀ n ∈ tableNames tokens, Text.asciiLower n ∉ commonTables (significant tokens)
  first : ∀ t, (significant tokens).head? = some t → ∀ n, t.kind = .quotedIdent n → n ∈ tableNames tokens

end Sql.KeywordScan

namespace Rows

open Sql KeywordScan

theorem sameWord_of_asciiUpper {a b : String} (h : Text.asciiUpper a = Text.asciiUpper b) :
    Text.sameWord a b = true := by
  have hchars : a.toList.map Char.toUpper = b.toList.map Char.toUpper := by
    simpa [Text.asciiUpper] using congrArg String.toList h
  have hlower := congrArg (List.map Char.toLower) hchars
  simp only [List.map_map] at hlower
  have hstep : ∀ cs : List Char, cs.map (Char.toLower ∘ Char.toUpper) = cs.map Char.toLower :=
    fun cs => List.map_congr_left fun c _ => Char.toLower_toUpper_eq_toLower c
  rw [hstep, hstep] at hlower
  simpa [Text.sameWord] using hlower

/-- A word that starts a selection is no name of a table. -/
theorem reserved_of_ofKeyword_select {word : String}
    (h : StatementKind.ofKeyword word = .select) : reserved.any (Text.sameWord · word) = true := by
  have hword : Text.asciiUpper word ∈ ["SELECT", "WITH", "VALUES"] := by
    unfold StatementKind.ofKeyword at h
    split at h <;> simp_all
  have hupper : ∀ w ∈ ["SELECT", "WITH", "VALUES"], Text.asciiUpper w = w := by decide
  have hreserved : ∀ w ∈ ["SELECT", "WITH", "VALUES"], w ∈ reserved := by decide
  refine List.any_eq_true.2 ⟨_, hreserved _ hword, sameWord_of_asciiUpper ?_⟩
  exact hupper _ hword

theorem ofKeyword_of_kind {ts : List Token} {t : Token} (hkind : KeywordScan.kind (t :: ts) = .select)
    (ht : t.kind = .word) : StatementKind.ofKeyword t.text = .select := by
  have hfind : (t :: ts).find? (·.kind = .word) = some t := by simp [ht]
  rw [KeywordScan.kind, hfind] at hkind
  simp only at hkind
  split at hkind
  · rename_i hsome
    simp only [Bool.and_eq_true, decide_eq_true_eq] at hsome
    exact hsome.1
  · exact hkind

/-- Where the first word starts a selection, only a quoted name can pass for the first table. -/
theorem introduced_from_of_kind {ts : List Token} (hkind : KeywordScan.kind ts = .select) (n : String) :
    n ∈ introduced (Token.ofLexeme fromWord :: ts) ↔
      n ∈ introduced ts ∨ ∃ t, ts.head? = some t ∧ t.kind = .quotedIdent n := by
  cases ts with
  | nil => simp [introduced, pairs]
  | cons t ts =>
    rw [introduced_cons_cons, introduced?_of_introducer (t := Token.ofLexeme fromWord) rfl,
      List.mem_append, or_comm]
    refine or_congr_right ?_
    obtain ⟨kind, text, pos⟩ := t
    cases kind with
    | word =>
      have hreserved := reserved_of_ofKeyword_select (ofKeyword_of_kind hkind rfl)
      rw [if_pos ⟨rfl, hreserved⟩]
      simp
    | quotedIdent m =>
      rw [if_neg (by simp)]
      simp only [Token.ident?, Option.mem_toList, List.head?_cons, Option.some.injEq]
      simp only [exists_eq_left', TokenKind.quotedIdent.injEq]
    | _ => simp [Token.ident?]

theorem kind_of_summary {tokens : List Token} (h : (KeywordScan.summary tokens).kind = .select) :
    KeywordScan.kind (significant tokens) = .select := h

/-- The keywords find the tables of a selection behind `FROM` when it is open. -/
theorem tables_eq_sourceTables_iff {tokens : List Token}
    (hkind : (KeywordScan.summary tokens).kind = .select) :
    (KeywordScan.summary tokens).tables = sourceTables tokens ↔ IsOpen tokens := by
  have hsource : ∀ n, n ∈ sourceTables tokens ↔ n ∈ tableNames tokens ∨
      ∃ t, (significant tokens).head? = some t ∧ t.kind = .quotedIdent n := by
    intro n
    rw [sourceTables, NameSet.mem_ofList]
    exact introduced_from_of_kind (kind_of_summary hkind) n
  constructor
  · intro h
    have hmem := fun n => (hsource n).symm.trans (h ▸ mem_summary_tables)
    exact ⟨fun n hn => ((hmem n).1 (.inl hn)).2,
      fun t ht n hk => ((hmem n).1 (.inr ⟨t, ht, hk⟩)).1⟩
  · intro h
    refine NameSet.ext_mem fun n => ?_
    rw [hsource, mem_summary_tables]
    constructor
    · exact fun hn => .inl hn.1
    · rintro (hn | ⟨t, ht, hk⟩)
      · exact ⟨hn, h.shown n hn⟩
      · have hn := h.first t ht n hk
        exact ⟨hn, h.shown n hn⟩

/-- What a statement grammar makes of a text that becomes the source of a selection. -/
structure Encloses (grammar : List Char → Option Summary) : Prop where
  kind : ∀ columns text s, grammar (selectionFrom columns text).toList = some s → s.kind = .select
  tables : ∀ columns text s t, grammar text.toList = some s → s.kind = .select →
    grammar (selectionFrom columns text).toList = some t → t.tables = s.tables
  refused : ∀ columns text, grammar text.toList = none →
    grammar (selectionFrom columns text).toList = none

/-- A query that was narrowed is a selection of kept columns that reads without errors. -/
theorem pruneWith_cases {grammar : List Char → Option Summary} {query : Query} {row : Row}
    (h : pruneWith grammar query row ≠ query) :
    ∃ columns, keptColumns? query row = some columns ∧
      (Query.parseWith grammar (selectionFrom columns query.original)).errors = [] ∧
      pruneWith grammar query row =
        { Query.parseWith grammar (selectionFrom columns query.original) with
          rewrittenFrom := some query.original } := by
  unfold pruneWith at h ⊢
  cases hkept : keptColumns? query row with
  | none => simp [hkept] at h
  | some columns =>
    simp only [hkept] at h ⊢
    by_cases herrors : (Query.parseWith grammar (selectionFrom columns query.original)).hasErrors = true
    · simp [herrors] at h
    · refine ⟨columns, rfl, by simpa [Query.hasErrors] using herrors, by simp [herrors]⟩

theorem keptColumns?_cases {query : Query} {row : Row} {columns : List String}
    (h : keptColumns? query row = some columns) :
    ∃ record info, row.record? = some record ∧ query.resultInfo = some info ∧
      info.error = none ∧ info.hasDuplicateColumns = false ∧
      record.mapping.unusedColumns ≠ [] ∧ columns = record.mapping.usedColumns := by
  cases hrecord : row.record? with
  | none => simp [keptColumns?, hrecord] at h
  | some record =>
    cases hinfo : query.resultInfo with
    | none => simp [keptColumns?, hrecord, hinfo] at h
    | some info =>
      simp only [keptColumns?, hrecord, hinfo, Option.bind_eq_bind, Option.bind_some] at h
      by_cases hbad : (info.error.isSome || info.hasDuplicateColumns) = true
      · simp [hbad] at h
      by_cases hempty : record.mapping.unusedColumns.isEmpty = true
      · simp [hbad, hempty] at h
      simp only [Bool.or_eq_true, not_or, Bool.not_eq_true, Option.isSome_eq_false_iff,
        Option.isNone_iff_eq_none] at hbad
      refine ⟨record, info, rfl, rfl, hbad.1, hbad.2, by simpa using hempty, ?_⟩
      simpa [hbad, hempty, eq_comm] using h

theorem summaryOf_enclosed_kind {grammar : List Char → Option Summary}
    (hgrammar : ∀ columns text s,
      grammar (selectionFrom columns text).toList = some s → s.kind = .select)
    {columns : List String} (hplain : ∀ c ∈ columns, '`' ∉ c.toList) (query : List Lexeme) :
    (summaryOf grammar (enclosed columns query)).kind = .select := by
  rw [summaryOf, normalizedText_enclosed hplain, summary_enclosed]
  cases h : grammar (selectionFrom columns (normalizedText query)).toList with
  | none => rfl
  | some s => exact hgrammar _ _ s h

/-- The tables of a text and of a selection from it: the grammar agrees with itself, and so do the
keywords on an open text. -/
theorem summaryOf_enclosed_tables_iff {grammar : List Char → Option Summary}
    (hgrammar : Encloses grammar) {columns : List String} (hplain : ∀ c ∈ columns, '`' ∉ c.toList) {query : List Lexeme}
    (hkind : (summaryOf grammar query).kind = .select) :
    (summaryOf grammar (enclosed columns query)).tables = (summaryOf grammar query).tables ↔
      (grammar (selectionFrom columns (normalizedText query)).toList).isSome ∨
        (grammar (normalizedText query).toList = none ∧ IsOpen (query.map Token.ofLexeme)) ∨
        ((grammar (normalizedText query).toList).isSome ∧
          (summaryOf grammar query).tables = sourceTables (query.map Token.ofLexeme)) := by
  rw [summaryOf, normalizedText_enclosed hplain, summary_enclosed]
  cases hwhole : grammar (selectionFrom columns (normalizedText query)).toList with
  | some t =>
    cases hpart : grammar (normalizedText query).toList with
    | none => simp [hgrammar.refused columns _ hpart] at hwhole
    | some s =>
      rw [summaryOf, hpart] at hkind ⊢
      simpa using hgrammar.tables columns _ s t hpart hkind hwhole
  | none =>
    cases hpart : grammar (normalizedText query).toList with
    | none =>
      rw [summaryOf, hpart] at hkind ⊢
      simpa [eq_comm] using tables_eq_sourceTables_iff hkind
    | some s => simp [eq_comm]

theorem isOpen_unplaced (ts : List Token) : IsOpen (ts.map Token.unplaced) ↔ IsOpen ts := by
  have hhead : ∀ n, (∃ t, (significant (ts.map Token.unplaced)).head? = some t ∧
      t.kind = .quotedIdent n) ↔ ∃ t, (significant ts).head? = some t ∧ t.kind = .quotedIdent n := by
    intro n
    rw [significant_unplaced, List.head?_map]
    cases (significant ts).head? <;> simp [Token.unplaced]
  constructor <;> intro h
  · refine ⟨fun n hn => ?_, fun t ht n hk => ?_⟩
    · have := h.shown n (by rwa [tableNames_unplaced])
      rwa [significant_unplaced, commonTables_unplaced] at this
    · obtain ⟨u, hu, hku⟩ := (hhead n).2 ⟨t, ht, hk⟩
      rw [← tableNames_unplaced]
      exact h.first u hu n hku
  · refine ⟨fun n hn => ?_, fun t ht n hk => ?_⟩
    · rw [significant_unplaced, commonTables_unplaced]
      exact h.shown n (by rwa [tableNames_unplaced] at hn)
    · obtain ⟨u, hu, hku⟩ := (hhead n).1 ⟨t, ht, hk⟩
      rw [tableNames_unplaced]
      exact h.first u hu n hku

theorem sourceTables_unplaced (ts : List Token) :
    sourceTables (ts.map Token.unplaced) = sourceTables ts := by
  rw [sourceTables, significant_unplaced]
  exact congrArg NameSet.ofList (introduced_unplaced (Token.ofLexeme fromWord :: significant ts))

/-- A narrowed query reads what the query reads exactly when the query is a selection and either the
grammar accepts the narrowed text, or it refuses both texts and nothing in the query depends on its
place, or it refuses the narrowed text only and the keywords find the same tables in it. -/
theorem pruneWith_reads_iff {grammar : List Char → Option Summary} (hgrammar : Encloses grammar)
    (text : String) (info : Option ResultInfo) (source : Option String) (row : Row)
    (hplain : ∀ record, row.record? = some record →
      ∀ c ∈ record.mapping.usedColumns, '`' ∉ c.toList) :
    let query := { Query.parseWith grammar text with resultInfo := info, rewrittenFrom := source }
    let pruned := pruneWith grammar query row
    query.errors = [] → pruned ≠ query →
      (pruned.kind = query.kind ∧ pruned.tables = query.tables ↔
        query.kind = .select ∧
          ((grammar pruned.normalized.toList).isSome ∨
            (grammar query.normalized.toList = none ∧ IsOpen (tokenize text).tokens) ∨
            ((grammar query.normalized.toList).isSome ∧
              query.tables = sourceTables (tokenize text).tokens))) := by
  intro query pruned herrors hne
  obtain ⟨columns, hkept, hpruned, heq⟩ := pruneWith_cases hne
  have horiginal : query.original = text := rfl
  rw [horiginal] at hpruned heq
  obtain ⟨record, _, hrecord, -, -, -, -, rfl⟩ := keptColumns?_cases hkept
  have hplain := hplain record hrecord
  have hquery := ((parseWith_errors_eq_nil_iff grammar).1 herrors).1
  have hwhole := ((parseWith_errors_eq_nil_iff grammar).1 hpruned).1
  have hlexemes := lexemes_selectionFrom_of_wellformed hplain hquery hwhole
  obtain ⟨hkind, htables⟩ : query.kind = _ ∧ query.tables = _ := parseWith_summary grammar hquery
  obtain ⟨hkind', htables'⟩ := parseWith_summary grammar hwhole
  rw [hlexemes] at hkind' htables'
  have hpkind : pruned.kind = _ := (congrArg Query.kind heq).trans hkind'
  have hptables : pruned.tables = _ := (congrArg Query.tables heq).trans htables'
  have hnormalized : query.normalized = _ := parseWith_normalized grammar text
  have hpnormalized : pruned.normalized = _ := (congrArg Query.normalized heq).trans
    (parseWith_normalized grammar _)
  have htokens := map_unplaced_tokenize text
  rw [summaryOf_enclosed_kind hgrammar.kind hplain] at hpkind
  rw [hpkind, hptables, htables, hkind, hnormalized, hpnormalized, hlexemes,
    normalizedText_enclosed hplain, ← isOpen_unplaced, ← sourceTables_unplaced, htokens]
  rw [eq_comm (a := StatementKind.select)]
  exact and_congr_right fun hselect => summaryOf_enclosed_tables_iff hgrammar hplain hselect

/-- A row that leaves a column unread. -/
def partialRow : Row :=
  .record
    { shape := .mk (.mk "UserName" []) [] [] []
      fields := []
      relations := []
      mapping := { usedColumns := ["id", "name"], unusedColumns := ["age"] }
      isChecked := true }

/-- A grammar without `GLOB` refuses this query, and its common table passes for a table once the
query is narrowed. -/
theorem pruneWith_reads_glob :
    let query := { Query.parseWith (fun _ => none)
        "WITH a AS (SELECT * FROM user WHERE name GLOB 'x') SELECT * FROM a" with
      resultInfo := some { columns := [⟨"id", none⟩, ⟨"name", none⟩, ⟨"age", none⟩] } }
    let pruned := pruneWith (fun _ => none) query partialRow
    query.tables.toList = ["user"] ∧ pruned.tables.toList = ["a", "user"] ∧
      ¬(pruned.kind = query.kind ∧ pruned.tables = query.tables) := by
  intro query pruned
  have hgrammar : Encloses fun _ => none :=
    ⟨fun _ _ _ h => (nomatch h), fun _ _ _ _ h => (nomatch h), fun _ _ _ => rfl⟩
  have hplain : ∀ record, partialRow.record? = some record →
      ∀ c ∈ record.mapping.usedColumns, '`' ∉ c.toList := by
    intro record h
    obtain rfl := Option.some.inj h
    decide
  refine ⟨by decide +kernel, by decide +kernel, fun h => ?_⟩
  have hreads := (pruneWith_reads_iff hgrammar _ _ _ partialRow hplain (by decide +kernel)
    (by decide +kernel)).1 h
  rcases hreads.2 with h | ⟨-, hopen⟩ | ⟨h, -⟩
  · exact absurd h (by decide)
  · exact hopen.shown "a" (by decide +kernel) (by decide +kernel)
  · exact absurd h (by decide)

end Rows

end DataAccess
