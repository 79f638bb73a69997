import DataAccess.Proofs.Sql.KeywordTables
import DataAccess.Proofs.Sql.Quotations
import DataAccess.Rows.Pruning

/-!
The selection of columns from a query, read lexeme by lexeme. The lexemes of the query stand between
the parentheses as they are, unless a line comment at its end swallows the closing one.
-/

set_option autoImplicit false

namespace DataAccess.Rows

open Sql

def blanks (n : Nat) : Lexeme := ⟨.whitespace, List.replicate n ' ', none⟩

def selectWord : Lexeme := ⟨.word, ['S', 'E', 'L', 'E', 'C', 'T'], none⟩

def fromWord : Lexeme := ⟨.word, ['F', 'R', 'O', 'M'], none⟩

def comma : Lexeme := ⟨.punct, [','], none⟩

def opening : Lexeme := ⟨.lParen, ['('], none⟩

def closing : Lexeme := ⟨.rParen, [')'], none⟩

def quoted (name : String) : Lexeme := ⟨.quotedIdent name, '`' :: (name.toList ++ ['`']), none⟩

theorem lexemes_quoted {name : String} {rest : List Char} (h : '`' ∉ name.toList)
    (hrest : rest.head? ≠ some '`') :
    lexemes ('`' :: (name.toList ++ '`' :: rest)) = quoted name :: lexemes rest := by
  have hbody : Quotation.backticks.body name.toList = name.toList := doubled_of_not_mem h
  have hfits : Quotation.backticks.Fits name (String.ofList rest) := by
    rw [← String.toList_ofList (l := rest)] at hrest
    exact hrest
  have hlexeme : lexeme '`' (name.toList ++ '`' :: rest) = (quoted name, rest) := by
    have hread := lexeme_quotation .backticks hfits
    rw [Quotation.lexeme, Quotation.toList_write, hbody, String.toList_ofList] at hread
    exact hread
  rw [lexemes_cons, hlexeme]

/-- A mark is a lexeme whatever stands behind it. -/
theorem lexemes_mark {x : Lexeme} (hx : x = comma ∨ x = opening ∨ x = closing)
    (rest : List Char) : lexemes (x.text ++ rest) = x :: lexemes rest := by
  have hlexeme : ∀ c, x.text = [c] → lexeme c rest = (x, rest) := by
    intro c hc
    rcases hx with rfl | rfl | rfl <;>
    · obtain rfl := List.head_eq_of_cons_eq hc
      unfold lexeme
      rw [if_neg (by decide), if_neg (by decide), if_neg (by simp), if_neg (by simp)]
      repeat rw [if_neg (by decide)]
      rfl
  obtain ⟨c, hc⟩ : ∃ c, x.text = [c] := by
    rcases hx with rfl | rfl | rfl <;> exact ⟨_, rfl⟩
  rw [hc, List.singleton_append, lexemes_cons, hlexeme c hc]

theorem lexemes_blanks {n : Nat} {c : Char} (rest : List Char) (hc : isSpace c = false) :
    lexemes (List.replicate (n + 1) ' ' ++ c :: rest) = blanks (n + 1) :: lexemes (c :: rest) := by
  have hlexeme : lexeme ' ' (List.replicate n ' ' ++ c :: rest) = (blanks (n + 1), c :: rest) := by
    unfold lexeme
    have hspace : ∀ x ∈ List.replicate n ' ', isSpace x = true := by
      intro x hx
      rw [(List.mem_replicate.1 hx).2]
      decide
    rw [if_neg (by decide), if_pos (by decide)]
    rw [List.takeWhile_append_of_pos hspace, List.dropWhile_append_of_pos hspace]
    simp [hc, blanks, List.replicate_succ]
  rw [List.replicate_succ, List.cons_append, lexemes_cons, hlexeme]

theorem lexemes_word {x : Lexeme} (hx : x = selectWord ∨ x = fromWord) (rest : List Char) :
    lexemes (x.text ++ ' ' :: rest) = x :: lexemes (' ' :: rest) := by
  have hlexeme : ∀ c cs, x.text = c :: cs → lexeme c (cs ++ ' ' :: rest) = (x, ' ' :: rest) := by
    intro c cs hcs
    rcases hx with rfl | rfl <;>
    · obtain ⟨rfl, rfl⟩ := List.cons.inj hcs
      unfold lexeme
      rw [if_neg (by decide), if_neg (by decide), if_neg (by simp), if_neg (by simp)]
      repeat rw [if_neg (by decide)]
      rw [if_pos (by decide)]
      rw [takeWhile_append_stop (by decide), dropWhile_append_stop (by decide)]
      rfl
  obtain ⟨c, cs, hcs⟩ : ∃ c cs, x.text = c :: cs := by
    rcases hx with rfl | rfl <;> exact ⟨_, _, rfl⟩
  rw [hcs, List.cons_append, lexemes_cons, hlexeme c cs hcs]

/-- The lexemes of a list of columns. -/
def columnLexemes : List String → List Lexeme
  | [] => []
  | [c] => [quoted c]
  | c :: d :: rest => quoted c :: comma :: blanks 1 :: columnLexemes (d :: rest)

theorem toList_quoteName (name : String) :
    (Text.quoteName name).toList = '`' :: (name.toList ++ ['`']) := by
  simp [Text.quoteName]

theorem lexemes_columns {columns : List String} (rest : List Char)
    (hplain : ∀ c ∈ columns, '`' ∉ c.toList) :
    lexemes ((", ".intercalate (columns.map Text.quoteName)).toList ++ ' ' :: rest) =
      columnLexemes columns ++ lexemes (' ' :: rest) := by
  induction columns with
  | nil => simp [columnLexemes]
  | cons c columns ih =>
    have hc := hplain c (by simp)
    cases columns with
    | nil =>
      have hquoted : lexemes ('`' :: (c.toList ++ '`' :: ' ' :: rest)) =
          quoted c :: lexemes (' ' :: rest) := lexemes_quoted hc (by simp)
      simpa [columnLexemes, toList_quoteName] using hquoted
    | cons d columns =>
      have ih := ih fun e he => hplain e (by simp [he])
      -- What follows the separator starts with the quote of the next column.
      obtain ⟨more, hmore⟩ : ∃ more, (", ".intercalate ((d :: columns).map Text.quoteName)).toList ++
          ' ' :: rest = '`' :: more := by
        cases columns <;> simp [toList_quoteName, String.intercalate_cons_cons]
      have hquoted : lexemes ('`' :: (c.toList ++ '`' :: ',' :: ' ' :: '`' :: more)) =
          quoted c :: lexemes (',' :: ' ' :: '`' :: more) := lexemes_quoted hc (by simp)
      have hcomma : lexemes (',' :: ' ' :: '`' :: more) = comma :: lexemes (' ' :: '`' :: more) :=
        lexemes_mark (.inl rfl) (' ' :: '`' :: more)
      have hblank : lexemes (' ' :: '`' :: more) = blanks 1 :: lexemes ('`' :: more) :=
        lexemes_blanks (n := 0) more (by decide)
      have hsep : ", ".toList = [',', ' '] := by decide
      rw [List.map_cons, List.map_cons, String.intercalate_cons_cons, ← List.map_cons]
      rw [String.toList_append, String.toList_append, List.append_assoc, List.append_assoc, hmore]
      rw [toList_quoteName, hsep, List.cons_append, List.append_assoc]
      simp only [List.cons_append, List.nil_append]
      rw [hquoted, hcomma, hblank, ← hmore, ih]
      rfl

/-- The lexemes before the keyword of the source. -/
def projectionLexemes : List String → List Lexeme
  | [] => [selectWord, blanks 2]
  | c :: rest => selectWord :: blanks 1 :: (columnLexemes (c :: rest) ++ [blanks 1])

/-- The lexemes before the selected query. -/
def selectionLexemes (columns : List String) : List Lexeme :=
  projectionLexemes columns ++ [fromWord, blanks 1]

/-- The text from the keyword of the source on, with `rest` behind its parenthesis. -/
def sourceText (rest : List Char) : List Char :=
  'F' :: 'R' :: 'O' :: 'M' :: ' ' :: '(' :: rest

theorem lexemes_sourceText (rest : List Char) :
    lexemes (sourceText rest) = fromWord :: blanks 1 :: opening :: lexemes rest := by
  have hopening : lexemes ('(' :: rest) = opening :: lexemes rest :=
    lexemes_mark (.inr (.inl rfl)) _
  have hblank : lexemes (' ' :: '(' :: rest) = blanks 1 :: lexemes ('(' :: rest) :=
    lexemes_blanks (n := 0) _ (by decide)
  have hfrom : lexemes (sourceText rest) = fromWord :: lexemes (' ' :: '(' :: rest) :=
    lexemes_word (.inr rfl) _
  rw [hfrom, hblank, hopening]

/-- The text of a selection up to its query. -/
def selectionLead (columns : List String) : String :=
  "SELECT " ++ ", ".intercalate (columns.map Text.quoteName) ++ " FROM ("

theorem selectionFrom_eq (columns : List String) (query : String) :
    selectionFrom columns query = selectionLead columns ++ query ++ ")" := by
  simp [selectionFrom, selectionLead, String.append_assoc]

theorem toList_selectionLead (columns : List String) (rest : List Char) :
    (selectionLead columns).toList ++ rest =
      selectWord.text ++ ' ' :: ((", ".intercalate (columns.map Text.quoteName)).toList ++
        ' ' :: sourceText rest) := by
  have hselect : "SELECT ".toList = ['S', 'E', 'L', 'E', 'C', 'T', ' '] := by decide
  have hsource : " FROM (".toList = [' ', 'F', 'R', 'O', 'M', ' ', '('] := by decide
  simp [selectionLead, hselect, hsource, selectWord, sourceText]

theorem toList_selectionFrom (columns : List String) (query : String) :
    (selectionFrom columns query).toList =
      selectWord.text ++ ' ' :: ((", ".intercalate (columns.map Text.quoteName)).toList ++
        ' ' :: sourceText (query.toList ++ [')'])) := by
  have hclosing : ")".toList = [')'] := by decide
  rw [selectionFrom_eq, String.toList_append, String.toList_append, hclosing, List.append_assoc,
    toList_selectionLead]

/-- The query of a selection does not change the lexemes before it. -/
theorem lexemes_selectionLead {columns : List String} (rest : List Char)
    (hplain : ∀ c ∈ columns, '`' ∉ c.toList) :
    lexemes ((selectionLead columns).toList ++ rest) =
      selectionLexemes columns ++ opening :: lexemes rest := by
  have hblank : lexemes (' ' :: sourceText rest) = blanks 1 :: lexemes (sourceText rest) :=
    lexemes_blanks (n := 0) _ (by decide)
  rw [toList_selectionLead, lexemes_word (.inl rfl)]
  cases columns with
  | nil =>
    have hblanks : lexemes (' ' :: ' ' :: sourceText rest) =
        blanks 2 :: lexemes (sourceText rest) := lexemes_blanks (n := 1) _ (by decide)
    simp [selectionLexemes, projectionLexemes, hblanks, lexemes_sourceText]
  | cons c columns =>
    obtain ⟨more, hmore⟩ : ∃ more, (", ".intercalate ((c :: columns).map Text.quoteName)).toList ++
        ' ' :: sourceText rest = '`' :: more := by
      cases columns <;> simp [toList_quoteName, String.intercalate_cons_cons]
    have hfirst : lexemes (' ' :: '`' :: more) = blanks 1 :: lexemes ('`' :: more) :=
      lexemes_blanks (n := 0) more (by decide)
    rw [hmore, hfirst, ← hmore, lexemes_columns _ hplain, hblank, lexemes_sourceText]
    simp [selectionLexemes, projectionLexemes]

theorem lexemes_selectionFrom {columns : List String} (query : String)
    (hplain : ∀ c ∈ columns, '`' ∉ c.toList) :
    lexemes (selectionFrom columns query).toList =
      selectionLexemes columns ++ opening :: lexemes (query.toList ++ [')']) := by
  rw [toList_selectionFrom, ← toList_selectionLead, lexemes_selectionLead _ hplain]

/-- What stands before the keyword of the source: the word that starts the selection, names, commas
and blanks. -/
inductive IsProjection : Lexeme → Prop
  | select : IsProjection selectWord
  | name (c : String) : IsProjection (quoted c)
  | comma : IsProjection comma
  | blanks (n : Nat) : IsProjection (blanks n)

theorem isProjection_columnLexemes {columns : List String} {x : Lexeme}
    (hx : x ∈ columnLexemes columns) : IsProjection x := by
  fun_induction columnLexemes columns with
  | case1 => simp at hx
  | case2 c =>
    rw [List.mem_singleton.1 hx]
    exact .name c
  | case3 c d rest ih =>
    simp only [List.mem_cons] at hx
    rcases hx with rfl | rfl | rfl | hx
    · exact .name c
    · exact .comma
    · exact .blanks 1
    · exact ih (by simpa using hx)

theorem isProjection_projectionLexemes {columns : List String} {x : Lexeme}
    (hx : x ∈ projectionLexemes columns) : IsProjection x := by
  cases columns with
  | nil =>
    simp only [projectionLexemes, List.mem_cons, List.not_mem_nil, or_false] at hx
    rcases hx with rfl | rfl
    · exact .select
    · exact .blanks 2
  | cons c rest =>
    simp only [projectionLexemes, List.mem_cons, List.mem_append, List.not_mem_nil, or_false] at hx
    rcases hx with rfl | rfl | hx | rfl
    · exact .select
    · exact .blanks 1
    · exact isProjection_columnLexemes hx
    · exact .blanks 1

/-- A lexeme that reads as its text and neither opens nor closes anything. -/
structure IsVerbatim (x : Lexeme) : Prop where
  fault : x.fault = none
  depth : ∀ n, depthStep n x.kind = some n
  normalized : (Token.ofLexeme x).normalized = String.ofList x.text
  bind : (Token.ofLexeme x).bind? = none

theorem IsProjection.isVerbatim {x : Lexeme} (hx : IsProjection x) : IsVerbatim x := by
  cases hx <;> exact ⟨rfl, fun n => by cases n <;> rfl, rfl, rfl⟩

theorem isVerbatim_selectionLexemes {columns : List String} {x : Lexeme}
    (hx : x ∈ selectionLexemes columns) : IsVerbatim x := by
  rcases List.mem_append.1 hx with hx | hx
  · exact (isProjection_projectionLexemes hx).isVerbatim
  · simp only [List.mem_cons, List.not_mem_nil, or_false] at hx
    rcases hx with rfl | rfl <;> exact ⟨rfl, fun n => by cases n <;> rfl, rfl, rfl⟩

section Verbatim

variable {xs : List Lexeme} (h : ∀ x ∈ xs, IsVerbatim x)
include h

theorem depthAfter_of_isVerbatim (n : Nat) : depthAfter n (xs.map Lexeme.kind) = some n := by
  induction xs with
  | nil => rfl
  | cons x xs ih =>
    rw [List.map_cons, depthAfter_cons, (h x (by simp)).depth]
    exact ih fun y hy => h y (by simp [hy])

theorem normalizedText_of_isVerbatim :
    normalizedText xs = String.ofList (xs.flatMap Lexeme.text) := by
  induction xs with
  | nil => rfl
  | cons x xs ih =>
    have ih := ih fun y hy => h y (by simp [hy])
    rw [normalizedText] at ih ⊢
    simp [(h x (by simp)).normalized, ih]

theorem bindsOf_of_isVerbatim : bindsOf xs = [] :=
  List.filterMap_eq_nil_iff.2 fun x hx => (h x hx).bind

end Verbatim

/-- The lexemes of a selection from a query with the given lexemes. -/
def enclosed (columns : List String) (query : List Lexeme) : List Lexeme :=
  selectionLexemes columns ++ opening :: (query ++ [closing])

/-- A selection from a well-formed query is well-formed. -/
theorem wellformed_enclosed {query : List Lexeme} (columns : List String)
    (h : Wellformed query) : Wellformed (enclosed columns query) := by
  have hselection : ∀ x ∈ selectionLexemes columns, IsVerbatim x :=
    fun _ => isVerbatim_selectionLexemes
  constructor
  · intro x hx
    simp only [enclosed, List.mem_append, List.mem_cons, List.not_mem_nil, or_false] at hx
    rcases hx with hx | rfl | hx | rfl
    · exact (hselection x hx).fault
    · rfl
    · exact h.fault x hx
    · rfl
  · have hquery : depthAfter 1 (query.map Lexeme.kind) = some 1 := depthAfter_add 1 h.balanced
    rw [enclosed, List.map_append, depthAfter_append, depthAfter_of_isVerbatim hselection]
    have hopening : depthStep 0 opening.kind = some 1 := rfl
    rw [Option.bind_some, List.map_cons, depthAfter_cons, hopening, Option.bind_some]
    rw [List.map_append, depthAfter_append, hquery]
    rfl

section Plain

variable {columns : List String} (hplain : ∀ c ∈ columns, '`' ∉ c.toList)
include hplain

theorem flatMap_selectionLexemes (query : String) :
    (selectionLexemes columns).flatMap Lexeme.text ++ '(' :: (query.toList ++ [')']) =
      (selectionFrom columns query).toList := by
  have h := lexemes_flatten (selectionFrom columns query).toList
  rw [lexemes_selectionFrom query hplain, List.flatMap_append, List.flatMap_cons,
    lexemes_flatten] at h
  exact h

theorem normalizedText_enclosed (query : List Lexeme) :
    normalizedText (enclosed columns query) = selectionFrom columns (normalizedText query) := by
  have htext := flatMap_selectionLexemes hplain (normalizedText query)
  have hverbatim : ∀ x ∈ selectionLexemes columns, IsVerbatim x :=
    fun _ => isVerbatim_selectionLexemes
  have hselection := normalizedText_of_isVerbatim hverbatim
  rw [← String.toList_inj, ← htext, enclosed, normalizedText_append, hselection]
  rw [← List.singleton_append, normalizedText_append, normalizedText_append]
  simp only [String.toList_append, String.toList_ofList]
  rfl

omit hplain in
theorem bindsOf_enclosed (query : List Lexeme) : bindsOf (enclosed columns query) = bindsOf query := by
  have hverbatim : ∀ x ∈ selectionLexemes columns, IsVerbatim x :=
    fun _ => isVerbatim_selectionLexemes
  have hselection := bindsOf_of_isVerbatim hverbatim
  rw [bindsOf] at hselection
  rw [bindsOf, enclosed, List.filterMap_append, hselection, List.filterMap_cons,
    List.filterMap_append]
  simp [Token.ofLexeme, Token.bind?, opening, closing, bindsOf]

/-- A query that does not end in a line comment stands between the parentheses as it is. -/
theorem lexemes_selectionFrom_of_open {query : String} (hquery : Wellformed (lexemes query.toList))
    (hlast : ∀ x, (lexemes query.toList).getLast? = some x → x.isLineComment = false) :
    lexemes (selectionFrom columns query).toList = enclosed columns (lexemes query.toList) := by
  have hclosing : lexemes [')'] = [closing] := by
    have := lexemes_mark (.inr (.inr rfl)) []
    simpa [closing, lexemes] using this
  rw [lexemes_selectionFrom query hplain, lexemes_append isBreak_close _ _ hquery.fault hlast,
    hclosing, enclosed]

/-- A line comment at the end of a query swallows the closing parenthesis, so that the opening one
has no partner. -/
theorem not_wellformed_selectionFrom {query : String} (hquery : Wellformed (lexemes query.toList))
    (hlast : ∃ x, (lexemes query.toList).getLast? = some x ∧ x.isLineComment = true) :
    ¬Wellformed (lexemes (selectionFrom columns query).toList) := by
  intro h
  rw [lexemes_selectionFrom query hplain] at h
  have hshapes := shapes_of_lexemes_append isBreak_close (by decide) query.toList hquery.fault hlast
  have hkinds := congrArg (List.map Prod.fst) hshapes
  simp only [List.map_map] at hkinds
  have hkinds : (lexemes (query.toList ++ [')'])).map Lexeme.kind =
    (lexemes query.toList).map Lexeme.kind := hkinds
  have hdepth := h.balanced
  rw [List.map_append, depthAfter_append, depthAfter_of_isVerbatim
    fun _ => isVerbatim_selectionLexemes] at hdepth
  have hopening : depthStep 0 opening.kind = some 1 := rfl
  rw [Option.bind_some, List.map_cons, depthAfter_cons, hopening, Option.bind_some, hkinds] at hdepth
  rw [depthAfter_add 1 hquery.balanced] at hdepth
  simp at hdepth

/-- A well-formed selection holds the lexemes of its query between the parentheses. -/
theorem lexemes_selectionFrom_of_wellformed {query : String} (hquery : Wellformed (lexemes query.toList))
    (h : Wellformed (lexemes (selectionFrom columns query).toList)) :
    lexemes (selectionFrom columns query).toList = enclosed columns (lexemes query.toList) := by
  refine lexemes_selectionFrom_of_open hplain hquery fun x hx => ?_
  cases hc : x.isLineComment with
  | false => rfl
  | true => exact absurd h (not_wellformed_selectionFrom hplain hquery ⟨x, hx, hc⟩)

end Plain

section Keywords

open KeywordScan

theorem IsProjection.isInert {x : Lexeme} (hx : IsProjection x) : IsInert (Token.ofLexeme x) := by
  cases hx with
  | select => rfl
  | name c => simp [IsInert, Token.isKeyword, Token.ofLexeme, quoted]
  | comma => rfl
  | blanks n => simp [IsInert, Token.isKeyword, Token.ofLexeme, Rows.blanks]

/-- The tables that keywords introduce in a text that stands behind `FROM`. -/
def sourceTables (tokens : List Token) : NameSet :=
  NameSet.ofList (introduced (Token.ofLexeme fromWord :: significant tokens))

theorem exists_projectionLexemes (columns : List String) :
    ∃ rest, projectionLexemes columns = selectWord :: rest := by
  cases columns <;> exact ⟨_, rfl⟩

theorem significant_enclosed (columns : List String) (query : List Lexeme) :
    ∃ names, (∀ t ∈ names, IsInert t) ∧
      significant ((enclosed columns query).map Token.ofLexeme) =
        Token.ofLexeme selectWord :: (names ++ Token.ofLexeme fromWord ::
          (significant (query.map Token.ofLexeme) ++ [Token.ofLexeme closing])) := by
  obtain ⟨rest, hrest⟩ := exists_projectionLexemes columns
  refine ⟨significant (rest.map Token.ofLexeme), fun t ht => ?_, ?_⟩
  · obtain ⟨x, hx, rfl⟩ := List.mem_map.1 (List.mem_filter.1 ht).1
    have hmem : x ∈ projectionLexemes columns := by simp [hrest, hx]
    exact (isProjection_projectionLexemes hmem).isInert
  · have hselect : ∀ ts, significant (Token.ofLexeme selectWord :: ts) =
        Token.ofLexeme selectWord :: significant ts := fun _ => rfl
    have hfrom : ∀ ts, significant (Token.ofLexeme fromWord :: Token.ofLexeme (blanks 1) ::
        Token.ofLexeme opening :: ts) = Token.ofLexeme fromWord :: significant ts := fun _ => rfl
    have hclosing : significant [Token.ofLexeme closing] = [Token.ofLexeme closing] := rfl
    simp only [enclosed, selectionLexemes, hrest, List.cons_append, List.append_assoc, List.map_cons,
      List.map_append, List.nil_append, hselect, significant_append, hfrom, List.map_nil, hclosing]

/-- The keywords read a selection as one, whose tables are those of the source. -/
theorem summary_enclosed (columns : List String) (query : List Lexeme) :
    KeywordScan.summary ((enclosed columns query).map Token.ofLexeme) =
      ⟨.select, sourceTables (query.map Token.ofLexeme)⟩ := by
  obtain ⟨names, hinert, htokens⟩ := significant_enclosed columns query
  have hwith : ∀ ts, startsWithCommonTable (Token.ofLexeme selectWord :: ts) = false := by
    intro ts
    rfl
  have hkind : ∀ ts, KeywordScan.kind (Token.ofLexeme selectWord :: ts) = .select := by
    intro ts
    rw [KeywordScan.kind, List.find?_cons_of_pos (by rfl), hwith]
    rfl
  have hintroduced : introduced (Token.ofLexeme selectWord :: (names ++ Token.ofLexeme fromWord ::
      (significant (query.map Token.ofLexeme) ++ [Token.ofLexeme closing]))) =
      introduced (Token.ofLexeme fromWord :: significant (query.map Token.ofLexeme)) := by
    rw [introduced_cons_of_isInert IsProjection.select.isInert, introduced_append_of_isInert hinert, ← List.cons_append,
      introduced_concat rfl]
  rw [introduced] at hintroduced
  have hall : ∀ names : List String, names.filter (fun _ => true) = names :=
    fun names => List.filter_eq_self.2 fun _ _ => rfl
  simp [KeywordScan.summary, htokens, hkind, commonTables, hwith, hintroduced, hall, sourceTables]

end Keywords

end DataAccess.Rows
