import DataAccess.Proofs.Statement.QuotedNames

/-!
The placeholders in the text of a write of entities, and the columns that they stand at. In the list
of an insert the i-th placeholder stands for the i-th name; everywhere else a placeholder follows its
name. Both are read by one rule: a placeholder takes the first name that none took so far.
-/

set_option autoImplicit false

namespace DataAccess

namespace Sql

/-- What of a text tells the columns of its placeholders. -/
inductive SlotMark where
  | name (n : String)
  | placeholder
deriving DecidableEq, Repr

namespace SlotMark

def ofKind? : TokenKind → Option SlotMark
  | .quotedIdent n => some (.name n)
  | .bind _ => some .placeholder
  | _ => none

/-- The marks of a text, as it is lexed. -/
def ofTokens (ts : List Token) : List SlotMark := ts.filterMap fun t => ofKind? t.kind

def ofLexemes (xs : List Lexeme) : List SlotMark := xs.filterMap fun x => ofKind? x.kind

def ofPiece? : SqlPiece → Option SlotMark
  | .text s => if s = "?" then some .placeholder else none
  | .name n => some (.name n)

/-- The column of each placeholder: the first name that none took so far. -/
def columns (waiting : List String) : List SlotMark → List (Option String)
  | [] => []
  | name n :: rest => columns (waiting ++ [n]) rest
  | placeholder :: rest => waiting.head? :: columns waiting.tail rest

/-- The columns of the placeholders of a statement; its first name is that of the table. -/
def slots (marks : List SlotMark) : List (Option String) := columns [] marks.tail

theorem columns_names (names waiting : List String) (rest : List SlotMark) :
    columns waiting (names.map name ++ rest) = columns (waiting ++ names) rest := by
  induction names generalizing waiting with
  | nil => simp
  | cons n names ih =>
    rw [List.map_cons, List.cons_append, columns, ih, List.append_assoc, List.singleton_append]

theorem columns_placeholders (names : List String) :
    columns names (names.map fun _ => placeholder) = names.map some := by
  induction names with
  | nil => rfl
  | cons n names ih => simpa [columns] using ih

/-- Placeholders that follow their names. -/
theorem columns_pairs (names : List String) (rest : List SlotMark) :
    columns [] ((names.flatMap fun n => [name n, placeholder]) ++ rest) =
      names.map some ++ columns [] rest := by
  induction names with
  | nil => rfl
  | cons n names ih => simpa [columns] using ih

theorem ofTokens_tokenize (sql : String) :
    ofTokens (tokenize sql).tokens = ofLexemes (lexemes sql.toList) := by
  have hkinds := congrArg (List.filterMap fun t : Token => ofKind? t.kind) (map_unplaced_tokenize sql)
  simp only [List.filterMap_map, Function.comp_def, Token.unplaced, Token.ofLexeme] at hkinds
  exact hkinds

end SlotMark

theorem lexemes_quoteName {n : String} (h : '`' ∉ n.toList) :
    lexemes (Text.quoteName n).toList = [Rows.quoted n] := by
  have hend : ([] : List Char).head? ≠ some '`' := by simp
  have hquoted := Rows.lexemes_quoted h hend
  rw [lexemes_nil] at hquoted
  rw [Rows.toList_quoteName, hquoted]

/-- The lexemes of pieces that join are those of the pieces. -/
theorem Spells.lexemes_assemble {first last : Char → Prop} {ps : List SqlPiece}
    (h : Spells first ps last) (hplain : ∀ n ∈ namesOf ps, '`' ∉ n.toList) :
    lexemes (assemble ps).toList = ps.flatMap fun p => lexemes p.sql.toList := by
  induction h with
  | nil => exact lexemes_nil
  | @text _ _ _ s c ps head start joins rest ih =>
    rw [assemble, String.toList_append, SqlPiece.sql, joins _ rest.start, ih hplain]
    rfl
  | @name _ _ n ps start rest ih =>
    have hn : '`' ∉ n.toList := hplain n List.mem_cons_self
    rw [assemble, String.toList_append, SqlPiece.sql, Joins.quoted hn _ rest.start,
      ih fun m hm => hplain m (List.mem_cons_of_mem _ hm)]
    rfl

theorem mem_separated {p : SqlPiece} {separator : String} {parts : List (List SqlPiece)}
    (h : p ∈ separated separator parts) : p = .text separator ∨ ∃ part ∈ parts, p ∈ part := by
  fun_induction separated separator parts with
  | case1 => cases h
  | case2 part => exact .inr ⟨part, List.mem_cons_self, h⟩
  | case3 part next rest ih =>
    rcases List.mem_append.1 h with h | h
    · exact .inr ⟨part, List.mem_cons_self, h⟩
    · rcases List.mem_cons.1 h with rfl | h
      · exact .inl rfl
      · obtain h | ⟨other, hother, h⟩ := ih h
        · exact .inl h
        · exact .inr ⟨other, List.mem_cons_of_mem _ hother, h⟩

/-- Separators that are no placeholders leave no marks. -/
theorem marks_separated {separator : String} (h : separator ≠ "?") (parts : List (List SqlPiece)) :
    (separated separator parts).filterMap SlotMark.ofPiece? =
      parts.flatMap fun part => part.filterMap SlotMark.ofPiece? := by
  fun_induction separated separator parts with
  | case1 => rfl
  | case2 part => simp
  | case3 part next rest ih =>
    rw [List.filterMap_append, List.filterMap_cons, ih, List.flatMap_cons]
    simp [SlotMark.ofPiece?, h]

end Sql

namespace Statement

open Sql Schema
open BuiltSql (nameList spells_names spells_last joins_blankText joins_paren joins_separator
  joins_verb Unspaced)

namespace EntityParam

variable (p : EntityParam)

/-- A column that is set to, or compared with, its placeholder. -/
def equation (c : BoundColumn) : List SqlPiece := [.name c.name, .text " = ", .text "?"]

def equations (separator : String) (columns : List BoundColumn) : List SqlPiece :=
  separated separator (columns.map equation)

/-- One placeholder for each column. -/
def values (columns : List BoundColumn) : List SqlPiece :=
  separated "," (columns.map fun _ => [.text "?"])

def verb (onConflict : OnConflict) : StatementKind → String
  | .insert => "INSERT OR " ++ onConflict.sql ++ " INTO "
  | .update => "UPDATE OR " ++ onConflict.sql ++ " "
  | _ => "DELETE FROM "

/-- What is set, and where; without columns there is no key either. -/
def assignments : List SqlPiece :=
  if p.columns.isEmpty then [.text " SET  WHERE "]
  else .text " SET " :: (equations "," p.columns ++
    .text " WHERE " :: equations " AND " p.keyColumns)

/-- What stands behind the name of the table. -/
def behindTable : StatementKind → List SqlPiece
  | .insert =>
    .text " (" :: (nameList "," (p.columns.map BoundColumn.name) ++
      .text ") VALUES (" :: (values p.columns ++ [.text ")"]))
  | .update => p.assignments
  | _ => .text " WHERE " :: equations " AND " p.keyColumns

/-- The text of the statement, its placeholders apart. -/
def pieces (kind : StatementKind) (onConflict : OnConflict) : List SqlPiece :=
  .text (verb onConflict kind) :: .name p.table :: p.behindTable kind

theorem assemble_equations (separator : String) (columns : List BoundColumn) :
    assemble (equations separator columns) =
      separator.intercalate (columns.map BoundColumn.slot) := by
  have hequation : ∀ c, assemble (equation c) = c.slot := by
    intro c
    simp [equation, BoundColumn.slot]
  rw [equations, assemble_separated, List.map_map]
  exact congrArg _ (List.map_congr_left fun c _ => hequation c)

theorem assemble_values (columns : List BoundColumn) :
    assemble (values columns) = ",".intercalate (columns.map fun _ => "?") := by
  rw [values, assemble_separated, List.map_map]
  exact congrArg _ (List.map_congr_left fun c _ => String.append_empty)

theorem assemble_behindTable (kind : StatementKind) (onConflict : OnConflict) :
    verb onConflict kind ++ (Text.quoteName p.table ++ assemble (p.behindTable kind)) =
      p.sql kind onConflict := by
  have hsql : p.sql kind onConflict = assemble (BuiltSql.pieces (.write p kind onConflict)) :=
    (BuiltSql.assemble_write p kind onConflict).symm
  rw [hsql]
  cases kind with
  | insert =>
    simp [behindTable, verb, BuiltSql.pieces, assemble_values, String.append_assoc]
  | update =>
    have hassignments : assemble p.assignments = assemble (BuiltSql.assignments p) := by
      unfold assignments BuiltSql.assignments
      split
      · rfl
      · simp [assemble_equations]
    simp [behindTable, verb, BuiltSql.pieces, hassignments, String.append_assoc]
  | delete | select | unknown =>
    simp [behindTable, verb, BuiltSql.pieces, assemble_equations]

theorem sql_eq_assemble (kind : StatementKind) (onConflict : OnConflict) :
    p.sql kind onConflict = assemble (p.pieces kind onConflict) :=
  (p.assemble_behindTable kind onConflict).symm

theorem marks_equations {separator : String} (h : separator ≠ "?") (columns : List BoundColumn) :
    (equations separator columns).filterMap SlotMark.ofPiece? =
      (columns.map BoundColumn.name).flatMap fun n => [.name n, .placeholder] := by
  rw [equations, marks_separated h, List.flatMap_map, List.flatMap_map]
  rfl

theorem marks_nameList (names : List String) :
    (nameList "," names).filterMap SlotMark.ofPiece? = names.map SlotMark.name := by
  rw [nameList, marks_separated (by decide), List.flatMap_map, List.map_eq_flatMap]
  rfl

theorem marks_values (columns : List BoundColumn) :
    (values columns).filterMap SlotMark.ofPiece? = columns.map fun _ => SlotMark.placeholder := by
  rw [values, marks_separated (by decide), List.flatMap_map, List.map_eq_flatMap]
  rfl

/-- Each placeholder stands at the column that it is bound for. -/
theorem slots_pieces (kind : StatementKind) (onConflict : OnConflict) :
    SlotMark.slots ((p.pieces kind onConflict).filterMap SlotMark.ofPiece?) =
      (p.boundColumns kind).map fun c => some c.name := by
  have hverb : SlotMark.ofPiece? (.text (verb onConflict kind)) = none := by
    cases kind <;> cases onConflict <;> decide
  have hslots : SlotMark.slots ((p.pieces kind onConflict).filterMap SlotMark.ofPiece?) =
      SlotMark.columns [] ((p.behindTable kind).filterMap SlotMark.ofPiece?) := by
    rw [pieces, List.filterMap_cons_none hverb]
    rfl
  have hwhere : SlotMark.columns [] ((equations " AND " p.keyColumns).filterMap SlotMark.ofPiece?) =
      p.keyColumns.map fun c => some c.name := by
    have hpairs := SlotMark.columns_pairs (p.keyColumns.map BoundColumn.name) []
    rw [List.append_nil] at hpairs
    rw [marks_equations (by decide), hpairs]
    simp [SlotMark.columns]
  rw [hslots]
  cases kind with
  | insert =>
    have hplaceholders := SlotMark.columns_placeholders (p.columns.map BoundColumn.name)
    have hnames := SlotMark.columns_names (p.columns.map BoundColumn.name) []
      (p.columns.map fun _ => SlotMark.placeholder)
    rw [List.map_map] at hplaceholders
    simp only [behindTable, List.filterMap_cons, List.filterMap_append, marks_nameList,
      marks_values, SlotMark.ofPiece?, List.filterMap_nil, List.append_nil, String.reduceEq,
      if_false, hnames]
    exact hplaceholders.trans List.map_map
  | update =>
    rw [behindTable, assignments]
    split
    · rename_i hempty
      have hnil := List.isEmpty_iff.1 hempty
      simp [boundColumns, BuiltSql.keyColumns_of_nil hnil, hnil, SlotMark.ofPiece?,
        SlotMark.columns]
    · simp only [List.filterMap_cons, List.filterMap_append, SlotMark.ofPiece?, String.reduceEq,
        if_false, marks_equations (show "," ≠ "?" by decide), SlotMark.columns_pairs, hwhere]
      simp [boundColumns]
  | delete | select | unknown => exact hwhere

/-- All text between the names. -/
def texts : List String :=
  ["?", ",", " (", ") VALUES (", ")", " SET ", " SET  WHERE ", " WHERE ", " AND ", " = ",
    "DELETE FROM "] ++
  ([OnConflict.abort, .replace, .ignore, .fail, .rollback].flatMap fun onConflict =>
    [verb onConflict .insert, verb onConflict .update])

/-- All text of the pieces is among `texts`. -/
def HasTexts (ps : List SqlPiece) : Prop := ∀ s, .text s ∈ ps → s ∈ texts

namespace HasTexts

variable {ps qs : List SqlPiece}

theorem nil : HasTexts [] := nofun

theorem text {t : String} (ht : t ∈ texts) (h : HasTexts ps) : HasTexts (.text t :: ps) := by
  intro s hs
  rcases List.mem_cons.1 hs with hs | hs
  · exact SqlPiece.text.inj hs ▸ ht
  · exact h s hs

theorem name {n : String} (h : HasTexts ps) : HasTexts (.name n :: ps) := by
  intro s hs
  rcases List.mem_cons.1 hs with hs | hs
  · cases hs
  · exact h s hs

theorem append (h : HasTexts ps) (h' : HasTexts qs) : HasTexts (ps ++ qs) := fun s hs =>
  (List.mem_append.1 hs).elim (h s) (h' s)

theorem separated {separator : String} {parts : List (List SqlPiece)} (ht : separator ∈ texts)
    (h : ∀ part ∈ parts, HasTexts part) : HasTexts (separated separator parts) := by
  intro s hs
  obtain hs | ⟨part, hpart, hs⟩ := mem_separated hs
  · exact SqlPiece.text.inj hs ▸ ht
  · exact h part hpart s hs

theorem equations {separator : String} (ht : separator ∈ texts) (columns : List BoundColumn) :
    HasTexts (equations separator columns) := by
  refine separated ht fun part hpart => ?_
  obtain ⟨c, -, rfl⟩ := List.mem_map.1 hpart
  exact .name (.text (by decide) (.text (by decide) .nil))

theorem nameList (names : List String) : HasTexts (nameList "," names) := by
  refine separated (by decide) fun part hpart => ?_
  obtain ⟨n, -, rfl⟩ := List.mem_map.1 hpart
  exact .name .nil

theorem values (columns : List BoundColumn) : HasTexts (values columns) := by
  refine separated (by decide) fun part hpart => ?_
  obtain ⟨c, -, rfl⟩ := List.mem_map.1 hpart
  exact .text (by decide) .nil

end HasTexts

theorem hasTexts_pieces (kind : StatementKind) (onConflict : OnConflict) :
    HasTexts (p.pieces kind onConflict) := by
  have hverb : verb onConflict kind ∈ texts := by
    cases kind <;> cases onConflict <;> decide
  refine .text hverb (.name ?_)
  cases kind with
  | insert =>
    refine .text (by decide) (.append (.nameList _) (.text (by decide) ?_))
    exact .append (.values _) (.text (by decide) .nil)
  | update =>
    rw [behindTable, assignments]
    split
    · exact .text (by decide) .nil
    · refine .text (by decide) (.append (.equations (by decide) _) ?_)
      exact .text (by decide) (.equations (by decide) _)
  | delete | select | unknown => exact .text (by decide) (.equations (by decide) _)

theorem spells_equations {columns : List BoundColumn} :
    ∀ part ∈ columns.map equation, Spells Unspaced part (isIdentPart · = false) := by
  intro part hpart
  obtain ⟨c, -, rfl⟩ := List.mem_map.1 hpart
  have hlast : (lexemes " = ".toList).getLast? = some (Rows.blanks 1) := by decide +kernel
  refine .name (by decide) (.text (c := ' ') (by decide) (by decide) (.of_getLast hlast .blank) ?_)
  exact .text (c := '?') (by decide) (by decide) .placeholder .nil

theorem spells_keys (columns : List BoundColumn) :
    ∃ last, Spells Unspaced (equations " AND " columns) last := by
  by_cases hne : columns.map equation = []
  · exact ⟨Unspaced, by rw [equations, hne]; exact .nil⟩
  · have hand : Joins Unspaced " AND ".toList := joins_blankText _ (by decide)
    exact ⟨_, Spells.separated_of_ne_nil (c := ' ') spells_equations (by decide) (by decide) hand hne⟩

theorem spells_pieces (kind : StatementKind) (onConflict : OnConflict) :
    ∃ last, Spells (fun _ => True) (p.pieces kind onConflict) last := by
  have hwhere : Joins Unspaced " WHERE ".toList := joins_blankText _ (by decide)
  obtain ⟨last, hkeys⟩ := spells_keys p.keyColumns
  cases kind with
  | insert =>
    have hopening : (lexemes ") VALUES (".toList).getLast? = some Rows.opening := by decide +kernel
    have hvalues : ∀ part ∈ p.columns.map fun _ => [SqlPiece.text "?"],
        Spells Unspaced part (isIdentPart · = false) := by
      intro part hpart
      obtain ⟨c, -, rfl⟩ := List.mem_map.1 hpart
      exact .text (c := '?') (by decide) (by decide) .placeholder .nil
    have hclosed : Spells Unspaced (values p.columns ++ [.text ")"]) fun _ => False :=
      Spells.separated_append (c := ',') hvalues (by decide) (by decide) joins_separator
        (spells_last (c := ')') (by decide) (by decide))
        (spells_last (c := ')') (by decide) (by decide))
    have hrest : ∀ {first : Char → Prop}, first ')' → Spells first
        (.text ") VALUES (" :: (values p.columns ++ [.text ")"])) fun _ => False := fun h =>
      .text (c := ')') (by decide) h (.of_getLast hopening (.mark (by simp))) hclosed
    refine ⟨fun _ => False, .text (c := 'I') ?_ trivial (joins_verb onConflict).1 ?_⟩
    · simp [verb]
    refine .name (by decide) (.text (c := ' ') (by decide) (by decide) joins_paren ?_)
    exact Spells.separated_append (c := ',') spells_names (by decide) (by decide) joins_separator
      (hrest (by decide)) (hrest (by decide))
  | update =>
    have hset : Joins Unspaced " SET ".toList := joins_blankText _ (by decide)
    by_cases hempty : p.columns.isEmpty = true
    · refine ⟨fun _ => False, .text (c := 'U') (by simp [verb]) trivial (joins_verb onConflict).2 ?_⟩
      rw [behindTable, assignments, if_pos hempty]
      exact .name (by decide) (spells_last (c := ' ') (by decide) (by decide))
    · have hne : p.columns.map equation ≠ [] := by simpa using hempty
      have hlist := Spells.separated_of_ne_nil (c := ',') spells_equations (by decide) (by decide)
        joins_separator hne
      refine ⟨last, .text (c := 'U') (by simp [verb]) trivial (joins_verb onConflict).2 ?_⟩
      rw [behindTable, assignments, if_neg hempty]
      refine .name (by decide) (.text (c := ' ') (by decide) (by decide) hset (hlist.append ?_))
      exact .text (c := ' ') (by decide) (by decide) hwhere hkeys
  | delete | select | unknown =>
    have hdelete : Joins Unspaced "DELETE FROM ".toList := joins_blankText _ (by decide)
    refine ⟨last, .text (c := 'D') (by simp [verb]) trivial hdelete (.name (by decide) ?_)⟩
    exact .text (c := ' ') (by decide) (by decide) hwhere hkeys

theorem namesOf_pieces (kind : StatementKind) (onConflict : OnConflict) :
    namesOf (p.pieces kind onConflict) = p.table :: (p.boundColumns kind).map BoundColumn.name := by
  have hequations : ∀ separator columns, namesOf (equations separator columns) =
      columns.map BoundColumn.name := by
    intro separator columns
    simp [equations, equation, List.flatMap_map, ← List.map_eq_flatMap]
  have hvalues : ∀ columns, namesOf (values columns) = [] := by
    intro columns
    simp [values]
  rw [pieces, namesOf_text, namesOf_name]
  cases kind with
  | insert => simp [behindTable, hvalues, boundColumns]
  | update =>
    rw [behindTable, assignments]
    split
    · rename_i hempty
      have hnil := List.isEmpty_iff.1 hempty
      simp [boundColumns, BuiltSql.keyColumns_of_nil hnil, hnil]
    · simp [hequations, boundColumns]
  | delete | select | unknown => simp [behindTable, hequations, boundColumns]

/-- Lexing the text finds the marks of its pieces, if the names in it contain no backtick. -/
theorem marks_sql {kind : StatementKind} {onConflict : OnConflict}
    (hplain : ∀ n ∈ p.table :: (p.boundColumns kind).map BoundColumn.name, '`' ∉ n.toList) :
    SlotMark.ofTokens (tokenize (p.sql kind onConflict)).tokens =
      (p.pieces kind onConflict).filterMap SlotMark.ofPiece? := by
  have hplain : ∀ n ∈ namesOf (p.pieces kind onConflict), '`' ∉ n.toList := by
    rwa [namesOf_pieces]
  have htexts : ∀ s ∈ texts, SlotMark.ofLexemes (lexemes s.toList) =
      (SlotMark.ofPiece? (.text s)).toList := by decide +kernel
  obtain ⟨last, hspells⟩ := p.spells_pieces kind onConflict
  rw [SlotMark.ofTokens_tokenize, sql_eq_assemble, hspells.lexemes_assemble hplain,
    SlotMark.ofLexemes, List.filterMap_flatMap, List.filterMap_eq_flatMap_toList]
  refine List.flatMap_congr fun q hq => ?_
  cases q with
  | text s => exact htexts s (p.hasTexts_pieces kind onConflict s hq)
  | name n =>
    have hn : n ∈ namesOf (p.pieces kind onConflict) := List.mem_filterMap.2 ⟨_, hq, rfl⟩
    rw [SqlPiece.sql, lexemes_quoteName (hplain n hn)]
    rfl

end EntityParam

end Statement

end DataAccess
