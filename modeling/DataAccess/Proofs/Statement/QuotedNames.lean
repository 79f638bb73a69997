import DataAccess.Proofs.Sql.NamePieces
import DataAccess.Rows.RelatedRows
import DataAccess.Statement.EntityWrite

/-!
The statements that are built around declared names: definitions of tables and views, selections of
columns, queries for related rows, and writes of entities. Each name stands between backticks as it
is declared, so it is read back exactly when it contains no backtick.
-/

set_option autoImplicit false

namespace DataAccess.Statement

open Sql Schema Rows

/-- A statement text, by what it is built from. -/
inductive BuiltSql where
  | table (entity : Entity) (columns : List Field)
  | view (view : View)
  | selection (columns : List String) (query : String)
  /-- The query for related rows, with what stands behind its opened list of keys. -/
  | related (rows : RelatedRows) (keys : String)
  | write (param : EntityParam) (kind : StatementKind) (onConflict : OnConflict)

namespace BuiltSql

def text : BuiltSql → String
  | table entity columns => entity.createTable columns
  | view v => v.createView
  | selection columns query => selectionFrom columns query
  | related rows keys => rows.queryLead ++ keys
  | write param kind onConflict => param.sql kind onConflict

/-- The names in the text, in order. -/
def names : BuiltSql → List String
  | table entity columns =>
    entity.tableName :: (columns.map Field.columnName ++ entity.primaryKey)
  | view v => [v.viewName]
  | selection columns _ => columns
  | related rows _ =>
    (match rows.element with
      | .entity _ => []
      | .column name _ => [name, rows.entityColumn]) ++ [rows.table, rows.entityColumn]
  | write param kind _ => param.table :: (param.boundColumns kind).map BoundColumn.name

/-- The default values in the text, as they are declared. -/
def defaults : BuiltSql → List String
  | table _ columns => columns.filterMap Field.default
  | _ => []

/-- A list of names. -/
def nameList (separator : String) (names : List String) : List SqlPiece :=
  separated separator (names.map ([.name ·]))

/-- A column with a placeholder for its value. -/
def slot (c : BoundColumn) : List SqlPiece := [.name c.name, .text " = ?"]

def slotList (separator : String) (columns : List BoundColumn) : List SqlPiece :=
  separated separator (columns.map slot)

/-- A column definition behind its name. -/
def definitionTail (f : Field) : String :=
  " " ++ f.storage.name ++ (if f.isRequired then " NOT NULL" else "") ++
    (f.default.map (" DEFAULT " ++ ·)).getD ""

def definition (f : Field) : List SqlPiece := [.name f.columnName, .text (definitionTail f)]

def primaryKey (entity : Entity) : List (List SqlPiece) :=
  if entity.primaryKey.isEmpty then []
  else [.text "PRIMARY KEY(" :: (nameList ", " entity.primaryKey ++ [.text ")"])]

/-- What is set, and where; without columns there is no key either. -/
def assignments (param : EntityParam) : List SqlPiece :=
  if param.columns.isEmpty then [.text " SET  WHERE "]
  else .text " SET " :: (slotList "," param.columns ++
    .text " WHERE " :: slotList " AND " param.keyColumns)

def pieces : BuiltSql → List SqlPiece
  | table entity columns =>
    .text "CREATE TABLE IF NOT EXISTS " :: .name entity.tableName :: .text " (" ::
      (separated ", " (columns.map definition ++ primaryKey entity) ++ [.text ")"])
  | view v => [.text "CREATE VIEW ", .name v.viewName, .text (" AS " ++ v.query)]
  | selection [] query => [.text (selectionFrom [] query)]
  | selection columns query =>
    .text "SELECT " :: (nameList ", " columns ++ [.text (" FROM (" ++ query ++ ")")])
  | related rows keys =>
    (match rows.element with
      | .entity _ => [.text "SELECT * FROM "]
      | .column name _ =>
        [.text "SELECT ", .name name, .text ",", .name rows.entityColumn, .text " FROM "]) ++
    [.name rows.table, .text " WHERE ", .name rows.entityColumn, .text (" IN (" ++ keys)]
  | write param .insert onConflict =>
    .text ("INSERT OR " ++ onConflict.sql ++ " INTO ") :: .name param.table :: .text " (" ::
      (nameList "," (param.columns.map BoundColumn.name) ++
        [.text (") VALUES (" ++ ",".intercalate (param.columns.map fun _ => "?") ++ ")")])
  | write param .update onConflict =>
    .text ("UPDATE OR " ++ onConflict.sql ++ " ") :: .name param.table :: assignments param
  | write param _ _ =>
    .text "DELETE FROM " :: .name param.table :: .text " WHERE " ::
      slotList " AND " param.keyColumns

@[simp] theorem assemble_nameList (separator : String) (names : List String) :
    assemble (nameList separator names) = separator.intercalate (names.map Text.quoteName) := by
  rw [nameList, assemble_separated, List.map_map]
  exact congrArg _ (List.map_congr_left fun n _ => String.append_empty)

@[simp] theorem namesOf_nameList (separator : String) (names : List String) :
    namesOf (nameList separator names) = names := by
  simp [nameList, List.flatMap_map]

@[simp] theorem assemble_slotList (separator : String) (columns : List BoundColumn) :
    assemble (slotList separator columns) =
      separator.intercalate (columns.map BoundColumn.slot) := by
  rw [slotList, assemble_separated, List.map_map]
  refine congrArg _ (List.map_congr_left fun c _ => ?_)
  simp [slot, BoundColumn.slot]

@[simp] theorem namesOf_slotList (separator : String) (columns : List BoundColumn) :
    namesOf (slotList separator columns) = columns.map BoundColumn.name := by
  simp [slotList, slot, List.flatMap_map, ← List.map_eq_flatMap]

theorem map_assemble_definition (columns : List Field) :
    (columns.map definition).map assemble = columns.map Field.definition := by
  rw [List.map_map]
  refine List.map_congr_left fun f _ => ?_
  simp [definition, definitionTail, Field.definition, String.append_assoc]

theorem map_assemble_primaryKey (entity : Entity) :
    (primaryKey entity).map assemble =
      if entity.primaryKey.isEmpty then []
      else ["PRIMARY KEY(" ++ ", ".intercalate (entity.primaryKey.map Text.quoteName) ++ ")"] := by
  unfold primaryKey
  split
  · rfl
  · simp [String.append_assoc]

theorem flatMap_namesOf_primaryKey (entity : Entity) :
    (primaryKey entity).flatMap namesOf = entity.primaryKey := by
  unfold primaryKey
  split
  · rename_i hempty
    rw [List.isEmpty_iff.1 hempty]
    rfl
  · simp

theorem keyColumns_of_nil {param : EntityParam} (h : param.columns = []) : param.keyColumns = [] := by
  simp [EntityParam.keyColumns, h]

theorem assemble_assignments (param : EntityParam) :
    assemble (assignments param) =
      " SET " ++ ",".intercalate (param.columns.map BoundColumn.slot) ++ " WHERE " ++
        param.keyCondition := by
  unfold assignments EntityParam.keyCondition
  split
  · rename_i hempty
    have hnil := List.isEmpty_iff.1 hempty
    rw [hnil, keyColumns_of_nil hnil]
    rfl
  · simp [String.append_assoc]

theorem namesOf_assignments (param : EntityParam) :
    namesOf (assignments param) = (param.columns ++ param.keyColumns).map BoundColumn.name := by
  unfold assignments
  split
  · rename_i hempty
    have hnil := List.isEmpty_iff.1 hempty
    rw [hnil, keyColumns_of_nil hnil]
    rfl
  · simp

theorem assemble_table (entity : Entity) (columns : List Field) :
    assemble (pieces (table entity columns)) = entity.createTable columns := by
  have htext : entity.createTable columns =
      "CREATE TABLE IF NOT EXISTS " ++ Text.quoteName entity.tableName ++ " (" ++
        ", ".intercalate (columns.map Field.definition ++ if entity.primaryKey.isEmpty then []
          else ["PRIMARY KEY(" ++ ", ".intercalate (entity.primaryKey.map Text.quoteName) ++ ")"]) ++
        ")" := rfl
  rw [htext, ← map_assemble_primaryKey, ← map_assemble_definition, ← List.map_append,
    ← assemble_separated, pieces]
  simp only [assemble_text, assemble_name, assemble_append, assemble_nil, String.append_empty,
    String.append_assoc]

theorem assemble_write (param : EntityParam) (kind : StatementKind) (onConflict : OnConflict) :
    assemble (pieces (write param kind onConflict)) = param.sql kind onConflict := by
  cases kind with
  | insert =>
    have hsql : param.sql .insert onConflict =
        "INSERT OR " ++ onConflict.sql ++ " INTO " ++ Text.quoteName param.table ++ " (" ++
          ",".intercalate (param.columns.map fun c => Text.quoteName c.name) ++ ") VALUES (" ++
          ",".intercalate (param.columns.map fun _ => "?") ++ ")" := rfl
    simp [hsql, pieces, Function.comp_def, String.append_assoc]
  | update =>
    have hsql : param.sql .update onConflict =
        "UPDATE OR " ++ onConflict.sql ++ " " ++ Text.quoteName param.table ++ " SET " ++
          ",".intercalate (param.columns.map BoundColumn.slot) ++ " WHERE " ++
          param.keyCondition := rfl
    simp [hsql, pieces, assemble_assignments, String.append_assoc]
  | delete | select | unknown =>
    have hsql : "DELETE FROM " ++ Text.quoteName param.table ++ " WHERE " ++ param.keyCondition =
        param.sql .delete onConflict := rfl
    exact Eq.trans (by simp [pieces, EntityParam.keyCondition, String.append_assoc]) hsql

theorem text_eq_assemble (b : BuiltSql) : b.text = assemble b.pieces := by
  cases b with
  | table entity columns => exact (assemble_table entity columns).symm
  | view v => simp [text, pieces, View.createView, String.append_assoc]
  | selection columns query =>
    cases columns <;> simp [text, pieces, selectionFrom, String.append_assoc]
  | related rows keys =>
    simp only [text, pieces, RelatedRows.queryLead]
    cases rows.element <;> simp [String.append_assoc]
  | write param kind onConflict => exact (assemble_write param kind onConflict).symm

theorem namesOf_pieces (b : BuiltSql) : namesOf b.pieces = b.names := by
  cases b with
  | table entity columns =>
    have hcolumns : (columns.map definition).flatMap namesOf = columns.map Field.columnName := by
      simp [List.flatMap_map, definition, ← List.map_eq_flatMap]
    simp [names, pieces, hcolumns, flatMap_namesOf_primaryKey]
  | view v => rfl
  | selection columns query => cases columns <;> simp [names, pieces]
  | related rows keys =>
    simp only [names, pieces]
    cases rows.element <;> rfl
  | write param kind onConflict =>
    cases kind <;> simp [names, pieces, namesOf_assignments, EntityParam.boundColumns]

/-- What may stand behind a blank or an opening mark. -/
def Unspaced (c : Char) : Prop := isSpace c = false

instance (c : Char) : Decidable (Unspaced c) := inferInstanceAs (Decidable (_ = false))

/-- The texts between names that end in a blank. -/
def blankTexts : List String :=
  [", ", " AND ", " SET ", " WHERE ", " FROM ", "SELECT ", "SELECT * FROM ", "DELETE FROM ",
    "CREATE TABLE IF NOT EXISTS ", "CREATE VIEW "]

theorem joins_blankText : ∀ s ∈ blankTexts, Joins Unspaced s.toList := by
  have hlast : ∀ s ∈ blankTexts, (lexemes s.toList).getLast? = some (blanks 1) := by decide +kernel
  exact fun s hs => .of_getLast (hlast s hs) .blank

/-- The texts between names that end in a mark. -/
def markTexts : List String := [",", " (", "PRIMARY KEY(", ")"]

theorem joins_markText {next : Char → Prop} : ∀ s ∈ markTexts, Joins next s.toList := by
  have hlast : ∀ s ∈ markTexts,
      ∃ x ∈ [comma, opening, closing], (lexemes s.toList).getLast? = some x := by decide +kernel
  intro s hs
  obtain ⟨x, hx, hlast⟩ := hlast s hs
  exact .of_getLast hlast (.mark (by simpa using hx))

theorem complete_of_all {s : List Char}
    (h : (lexemes s).getLast?.all (fun x => x.fault.isNone && !x.isLineComment) = true) :
    Complete s := by
  intro x hx
  rw [hx] at h
  simpa [Lexeme.IsComplete] using h

theorem complete_definitionTail {f : Field} (h : ∀ d, f.default = some d → Complete d.toList) :
    Complete (definitionTail f).toList := by
  unfold definitionTail
  generalize f.storage = storage
  generalize f.isRequired = required
  cases hdefault : f.default with
  | none =>
    refine complete_of_all ?_
    cases storage <;> cases required <;> decide +kernel
  | some d =>
    have hblank : (lexemes (" " ++ storage.name ++ (if required then " NOT NULL" else "") ++
        " DEFAULT ").toList).getLast? = some (blanks 1) := by
      cases storage <;> cases required <;> decide +kernel
    rw [Option.map_some, Option.getD_some, ← String.append_assoc, String.toList_append]
    exact (h d hdefault).after hblank

theorem spells_definition {f : Field} (h : ∀ d, f.default = some d → Complete d.toList) :
    Spells Unspaced (definition f) IsBreak := by
  have htail := (complete_definitionTail h).joins
  have hhead : (definitionTail f).toList.head? = some ' ' := by simp [definitionTail]
  exact .name (by decide) (.text hhead (by decide) htail .nil)

theorem spells_slot (c : BoundColumn) : Spells Unspaced (slot c) (isIdentPart · = false) := by
  have hlast : (lexemes " = ?".toList).getLast? = some ⟨.bind none, ['?'], none⟩ := by decide +kernel
  exact .name (by decide) (.text (c := ' ') (by decide) (by decide) (.of_getLast hlast .placeholder) .nil)

theorem spells_slots {columns : List BoundColumn} :
    ∀ part ∈ columns.map slot, Spells Unspaced part (isIdentPart · = false) := by
  intro part hpart
  obtain ⟨column, -, rfl⟩ := List.mem_map.1 hpart
  exact spells_slot column

theorem spells_names {names : List String} :
    ∀ part ∈ names.map ([SqlPiece.name ·]), Spells Unspaced part (· ≠ '`') := by
  intro part hpart
  obtain ⟨n, -, rfl⟩ := List.mem_map.1 hpart
  exact .name (by decide) .nil

theorem joins_comma : Joins Unspaced ", ".toList := joins_blankText _ (by decide)

theorem spells_closing {first : Char → Prop} (h : first ')') : Spells first [.text ")"] IsBreak := by
  exact .text (c := ')') (by decide) h (joins_markText _ (by decide)) .nil

theorem spells_primaryKey {entity : Entity} :
    ∀ part ∈ primaryKey entity, Spells Unspaced part IsBreak := by
  intro part hpart
  unfold primaryKey at hpart
  split at hpart
  · cases hpart
  · obtain rfl := List.mem_singleton.1 hpart
    have hopening : Joins Unspaced "PRIMARY KEY(".toList := joins_markText _ (by decide)
    refine .text (c := 'P') (by decide) (by decide) hopening ?_
    exact Spells.separated_append (c := ',') spells_names (by decide) (by decide) joins_comma
      (spells_closing (by decide)) (spells_closing (by decide))

/-- The last piece of a text, behind which nothing stands. -/
theorem spells_last {first : Char → Prop} {s : String} {c : Char} (head : s.toList.head? = some c)
    (start : first c) : Spells first [.text s] fun _ => False := .text head start .never .nil

theorem joins_paren : Joins Unspaced " (".toList := joins_markText _ (by decide)

theorem spells_table (entity : Entity) {columns : List Field}
    (h : ∀ f ∈ columns, ∀ d, f.default = some d → Complete d.toList) :
    Spells (fun _ => True) (pieces (table entity columns)) fun _ => False := by
  have hparts : ∀ part ∈ columns.map definition ++ primaryKey entity,
      Spells Unspaced part IsBreak := by
    intro part hpart
    rcases List.mem_append.1 hpart with hpart | hpart
    · obtain ⟨f, hf, rfl⟩ := List.mem_map.1 hpart
      exact spells_definition (h f hf)
    · exact spells_primaryKey part hpart
  have hcomma : IsBreak ',' := by refine ⟨?_, ?_, ?_, ?_, ?_, ?_⟩ <;> decide
  have hlist := Spells.separated_append (c := ',') hparts (by decide) hcomma joins_comma
    (spells_last (c := ')') (s := ")") (by decide) (by decide))
    (spells_last (c := ')') (s := ")") (by decide) isBreak_close)
  refine .text (c := 'C') (by decide) trivial (joins_blankText _ (by decide)) ?_
  exact .name (by decide) (.text (c := ' ') (by decide) (by decide) joins_paren hlist)

theorem spells_view (v : View) :
    Spells (fun _ => True) (pieces (view v)) fun _ => False := by
  refine .text (c := 'C') (by decide) trivial (joins_blankText _ (by decide)) ?_
  exact .name (by decide) (spells_last (c := ' ') (by simp) (by decide))

theorem spells_selection (columns : List String) (query : String) :
    Spells (fun _ => True) (pieces (selection columns query)) fun _ => False := by
  cases columns with
  | nil => exact spells_last (c := 'S') (by simp [selectionFrom]) trivial
  | cons column columns =>
    have hselect : Joins Unspaced "SELECT ".toList := joins_blankText _ (by decide)
    have hlist : Spells Unspaced (nameList ", " (column :: columns)) (· ≠ '`') :=
      Spells.separated_of_ne_nil (c := ',') spells_names (by decide) (by decide) joins_comma
        (List.cons_ne_nil _ _)
    refine .text (c := 'S') (by decide) trivial hselect (hlist.append ?_)
    exact spells_last (c := ' ') (by simp) (by decide)

theorem joins_separator : Joins Unspaced ",".toList := joins_markText _ (by decide)

theorem spells_related (rows : RelatedRows) (keys : String) :
    Spells (fun _ => True) (pieces (related rows keys)) fun _ => False := by
  have hwhere : Joins Unspaced " WHERE ".toList := joins_blankText _ (by decide)
  have hsource : Spells Unspaced
      [.name rows.table, .text " WHERE ", .name rows.entityColumn, .text (" IN (" ++ keys)]
      fun _ => False := by
    refine .name (by decide) (.text (c := ' ') (by decide) (by decide) hwhere ?_)
    exact .name (by decide) (spells_last (c := ' ') (by simp) (by decide))
  simp only [pieces]
  cases rows.element with
  | entity row =>
    have hselect : Joins Unspaced "SELECT * FROM ".toList := joins_blankText _ (by decide)
    have hlead : Spells (fun _ => True) [.text "SELECT * FROM "] Unspaced :=
      .text (c := 'S') (by decide) trivial hselect .nil
    exact hlead.append hsource
  | column name reader =>
    have hselect : Joins Unspaced "SELECT ".toList := joins_blankText _ (by decide)
    have hfrom : Joins Unspaced " FROM ".toList := joins_blankText _ (by decide)
    have hlead : Spells (fun _ => True)
        [.text "SELECT ", .name name, .text ",", .name rows.entityColumn, .text " FROM "] Unspaced := by
      refine .text (c := 'S') (by decide) trivial hselect (.name (by decide) ?_)
      refine .text (c := ',') (by decide) (by decide) joins_separator (.name (by decide) ?_)
      exact .text (c := ' ') (by decide) (by decide) hfrom .nil
    exact hlead.append hsource

/-- The condition on the key at the end of a statement: some character may follow a name, but not it. -/
theorem spells_keyCondition (columns : List BoundColumn) :
    ∃ last c, Spells Unspaced (slotList " AND " columns) last ∧ c ≠ '`' ∧ ¬last c := by
  by_cases hne : columns.map slot = []
  · exact ⟨Unspaced, ' ', by rw [slotList, hne]; exact .nil, by decide, by decide⟩
  · have hand : Joins Unspaced " AND ".toList := joins_blankText _ (by decide)
    have hlist := Spells.separated_of_ne_nil (c := ' ') spells_slots (by decide) (by decide) hand hne
    exact ⟨_, 'a', hlist, by decide, by decide⟩

theorem joins_verb (onConflict : OnConflict) :
    Joins Unspaced ("INSERT OR " ++ onConflict.sql ++ " INTO ").toList ∧
      Joins Unspaced ("UPDATE OR " ++ onConflict.sql ++ " ").toList := by
  constructor <;> refine .of_getLast (x := blanks 1) ?_ .blank <;> cases onConflict <;>
    decide +kernel

theorem spells_insert (param : EntityParam) (onConflict : OnConflict) :
    Spells (fun _ => True) (pieces (write param .insert onConflict)) fun _ => False := by
  have hvalues : ∀ {first : Char → Prop}, first ')' →
      Spells first [.text (") VALUES (" ++ ",".intercalate (param.columns.map fun _ => "?") ++ ")")]
        fun _ => False := fun h => spells_last (c := ')') (by simp) h
  refine .text (c := 'I') (by simp) trivial (joins_verb onConflict).1 (.name (by decide) ?_)
  refine .text (c := ' ') (by decide) (by decide) joins_paren ?_
  exact Spells.separated_append (c := ',') spells_names (by decide) (by decide) joins_separator
    (hvalues (by decide)) (hvalues (by decide))

theorem spells_assignments (param : EntityParam) :
    ∃ last c, Spells (· ≠ '`') (assignments param) last ∧ c ≠ '`' ∧ ¬last c := by
  obtain ⟨last, c, hkeys, hc, hlast⟩ := spells_keyCondition param.keyColumns
  have hset : Joins Unspaced " SET ".toList := joins_blankText _ (by decide)
  have hwhere : Joins Unspaced " WHERE ".toList := joins_blankText _ (by decide)
  unfold assignments
  split
  · exact ⟨_, 'a', spells_last (c := ' ') (by decide) (by decide), by decide, id⟩
  · rename_i hempty
    have hne : param.columns.map slot ≠ [] := by simpa using hempty
    have hlist := Spells.separated_of_ne_nil (c := ',') spells_slots (by decide) (by decide)
      joins_separator hne
    refine ⟨last, c, .text (c := ' ') (by decide) (by decide) hset ?_, hc, hlast⟩
    exact hlist.append (.text (c := ' ') (by decide) (by decide) hwhere hkeys)

theorem spells_write (param : EntityParam) (kind : StatementKind) (onConflict : OnConflict) :
    ∃ last c, Spells (fun _ => True) (pieces (write param kind onConflict)) last ∧
      c ≠ '`' ∧ ¬last c := by
  have hdelete : Joins Unspaced "DELETE FROM ".toList := joins_blankText _ (by decide)
  have hwhere : Joins Unspaced " WHERE ".toList := joins_blankText _ (by decide)
  cases kind with
  | insert => exact ⟨fun _ => False, 'a', spells_insert param onConflict, by decide, id⟩
  | update =>
    obtain ⟨last, c, hrest, hc, hlast⟩ := spells_assignments param
    refine ⟨last, c, ?_, hc, hlast⟩
    exact .text (c := 'U') (by simp) trivial (joins_verb onConflict).2 (.name (by decide) hrest)
  | delete | select | unknown =>
    obtain ⟨last, c, hkeys, hc, hlast⟩ := spells_keyCondition param.keyColumns
    refine ⟨last, c, .text (c := 'D') (by decide) trivial hdelete (.name (by decide) ?_), hc, hlast⟩
    exact .text (c := ' ') (by decide) (by decide) hwhere hkeys

theorem spells_pieces {b : BuiltSql} (h : ∀ d ∈ b.defaults, Complete d.toList) :
    ∃ last c, Spells (fun _ => True) b.pieces last ∧ c ≠ '`' ∧ ¬last c := by
  cases b with
  | table entity columns =>
    refine ⟨_, 'a', spells_table entity fun f hf d hd => h d ?_, by decide, id⟩
    exact List.mem_filterMap.2 ⟨f, hf, hd⟩
  | view v => exact ⟨_, 'a', spells_view v, by decide, id⟩
  | selection columns query => exact ⟨_, 'a', spells_selection columns query, by decide, id⟩
  | related rows keys => exact ⟨_, 'a', spells_related rows keys, by decide, id⟩
  | write param kind onConflict => exact spells_write param kind onConflict

/-- Each embedded name is, at its place in the text, a single quoted token that denotes it. -/
def DenotesAll (b : BuiltSql) : Prop :=
  ∀ front n back, b.pieces = front ++ .name n :: back → Denotes b.text (assemble front) n

/-- A text that is built around names is put together from them and from text between them. Behind
defaults that are complete texts, each name is a single quoted token that denotes it exactly when no
name contains a backtick. -/
theorem denotesAll_iff (b : BuiltSql) (hdefaults : ∀ d ∈ b.defaults, Complete d.toList) :
    b.text = assemble b.pieces ∧ namesOf b.pieces = b.names ∧
      (b.DenotesAll ↔ ∀ n ∈ b.names, '`' ∉ n.toList) := by
  obtain ⟨last, c, hspells, hc, hlast⟩ := spells_pieces hdefaults
  refine ⟨b.text_eq_assemble, b.namesOf_pieces, ?_⟩
  rw [DenotesAll, text_eq_assemble, ← b.namesOf_pieces]
  exact hspells.denotesNames_iff hc hlast

/-- A table whose name contains a backtick. -/
def quotedTable : BuiltSql :=
  .table { record := { name := "User" }, table := some "user`s", primaryKey := ["id"] }
    [{ name := "id", type := .simple "i64" },
      { name := "age", type := .simple "i32", default := some "0" }]

theorem denotesAll_iff_quotedTable :
    quotedTable.text = "CREATE TABLE IF NOT EXISTS `user`s` (`id` INTEGER NOT NULL, " ++
        "`age` INTEGER NOT NULL DEFAULT 0, PRIMARY KEY(`id`))" ∧
      ¬quotedTable.DenotesAll := by
  have hdefaults : ∀ d ∈ quotedTable.defaults, Complete d.toList := by
    intro d hd
    obtain rfl : d = "0" := by simpa [quotedTable, defaults] using hd
    exact complete_of_all (by decide +kernel)
  obtain ⟨-, -, hdenotes⟩ := quotedTable.denotesAll_iff hdefaults
  refine ⟨by decide +kernel, fun hall => ?_⟩
  exact hdenotes.1 hall "user`s" (by simp [quotedTable, names, Entity.tableName]) (by decide)

end BuiltSql

end DataAccess.Statement
