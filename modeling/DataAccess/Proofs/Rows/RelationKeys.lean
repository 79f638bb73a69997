import DataAccess.Proofs.Rows.ResolvedRows
import DataAccess.Proofs.Rows.Writing

/-!
Where the keys of related rows are read. The index of the parent column is declared when the column
is there, and then both the loop that collects the keys and the look-up of a row's related rows use
it. A result that is known to lack the column has no such index, and the keys of that relation are
read from the first column.
-/

set_option autoImplicit false

namespace DataAccess.Rows

open Code Emit Schema
open DataAccess.Convert

/-- The declaration of the index of a column that must be there. -/
def indexLine (cursor name column : String) : String :=
  "let " ++ name ++ " = db_util::column_index_or_throw" ++
    ("(&" ++ cursor ++ ", " ++ Text.literal column ++ ")") ++ "?" ++ ";"

theorem declare_required (f : BoundField) (cursor : String) (s : Scope) :
    ∃ name depth, ((CursorIndex.declare f true cursor).run s).1 = .known name ∧
      (depth, indexLine cursor name f.column) ∈ written (CursorIndex.declare f true cursor) s := by
  refine ⟨_, s.block.depth, rfl, ?_⟩
  have hwritten : written (CursorIndex.declare f true cursor) s =
      [(s.block.depth, indexLine cursor _ f.column)] := List.drop_left
  rw [hwritten]
  exact List.mem_singleton_self _

namespace RecordRow

variable (row : RecordRow) (cursor : String)

def readFields : List BoundField := row.fields.filter fun f =>
  row.mapping.usedColumns.contains f.column

def declareIndex (f : BoundField) : Emit (String × CursorIndex) := do
  let required := row.isChecked || f.isRequired || row.isRelationParent f.column
  return (f.column, ← CursorIndex.declare f required cursor)

def declareIndices : Emit (List (String × CursorIndex)) :=
  row.readFields.mapM (row.declareIndex cursor)

/-- The indices as they are found by their columns. -/
def indexState (s : Scope) : RowState :=
  { indices := ((row.declareIndices cursor).run s).1.reverse }

theorem appends_declareIndex (f : BoundField) : Appends (row.declareIndex cursor f) :=
  (appends_declare _ _ _).bind fun _ => appends_pure _

theorem appends_declareIndices : Appends (row.declareIndices cursor) :=
  Appends.mapM (row.appends_declareIndex cursor) _

variable {row cursor} {s : Scope}

theorem of_mem_indices {column : String} {index : CursorIndex}
    (h : (column, index) ∈ ((row.declareIndices cursor).run s).1) :
    (∃ f ∈ row.readFields, f.column = column) ∧
      (row.isRelationParent column = true → ∃ name depth, index = .known name ∧
        (depth, indexLine cursor name column) ∈ written (row.declareIndices cursor) s) := by
  have hsteps := forall₂_mapM (row.appends_declareIndex cursor) row.readFields s
  obtain ⟨f, hf, t, heq, hwritten⟩ := exists_of_forall₂_right hsteps h
  obtain rfl : column = f.column := congrArg Prod.fst heq
  refine ⟨⟨f, hf, rfl⟩, fun hparent => ?_⟩
  have hdeclare : row.declareIndex cursor f = (do
      return (f.column, ← CursorIndex.declare f true cursor)) := by
    rw [declareIndex, hparent, Bool.or_true]
  rw [hdeclare] at heq hwritten
  obtain ⟨name, depth, hname, hline⟩ := declare_required f cursor t
  exact ⟨name, depth, (congrArg Prod.snd heq).trans hname, hwritten.subset hline⟩

variable (cursor s) in
theorem exists_mem_indices {f : BoundField} (hf : f ∈ row.readFields) :
    ∃ index, (f.column, index) ∈ ((row.declareIndices cursor).run s).1 := by
  have hsteps := forall₂_mapM (row.appends_declareIndex cursor) row.readFields s
  obtain ⟨entry, hentry, t, rfl, -⟩ := exists_of_forall₂_right hsteps.flip hf
  exact ⟨_, hentry⟩

theorem lookup_parentColumn {r : RelatedRows} (hr : r ∈ row.relations) {f : BoundField}
    (hf : f ∈ row.readFields) (hcolumn : f.column = r.parentColumn) :
    ∃ name depth, (row.indexState cursor s).indices.lookup r.parentColumn = some (.known name) ∧
      (depth, indexLine cursor name r.parentColumn) ∈ written (row.declareIndices cursor) s := by
  have hparent : row.isRelationParent r.parentColumn = true :=
    List.any_eq_true.2 ⟨r, hr, by simp⟩
  -- Of several fields with the column the last one counts; all of them are certain.
  cases hlookup : (row.indexState cursor s).indices.lookup r.parentColumn with
  | none =>
    obtain ⟨index, hindex⟩ := exists_mem_indices cursor s hf
    have hne := List.lookup_eq_none_iff.1 hlookup _ (List.mem_reverse.2 hindex)
    simp [hcolumn] at hne
  | some index =>
    obtain ⟨before, after, hindices, -⟩ := List.lookup_eq_some_iff.1 hlookup
    have hmem : (r.parentColumn, index) ∈ (row.indexState cursor s).indices := by
      rw [hindices]
      simp
    obtain ⟨-, hknown⟩ := of_mem_indices (List.mem_reverse.1 hmem)
    obtain ⟨name, depth, rfl, hline⟩ := hknown hparent
    exact ⟨name, depth, rfl, hline⟩

theorem lookup_unread {column : String} (h : ∀ f ∈ row.readFields, f.column ≠ column) :
    (row.indexState cursor s).indices.lookup column = none := by
  rw [List.lookup_eq_none_iff]
  rintro ⟨other, index⟩ hmem
  obtain ⟨⟨f, hf, rfl⟩, -⟩ := of_mem_indices (List.mem_reverse.1 hmem)
  simpa using (h f hf).symm

variable (row cursor) in
def writeCollections (state : RowState) : Emit (List String) :=
  row.relations.mapM fun r => r.writePrefetch cursor (keyIndex state r)

theorem appends_writeCollections (state : RowState) :
    Appends (row.writeCollections cursor state) :=
  Appends.mapM (fun r => r.appends_writePrefetch cursor (keyIndex state r)) _

variable (row cursor s) in
def indexScope : Scope := ((row.declareIndices cursor).run s).2

variable (row cursor s) in
/-- What the prologue leaves to the rows. -/
def state : RowState := ((row.writePrologue cursor).run s).1

theorem state_eq :
    row.state cursor s = { row.indexState cursor s with
      maps := ((row.writeCollections cursor (row.indexState cursor s)).run
        (row.indexScope cursor s)).1 } := rfl

variable (row cursor s) in
theorem written_writePrologue :
    written (row.writePrologue cursor) s = written (row.declareIndices cursor) s ++
      written (row.writeCollections cursor (row.indexState cursor s)) (row.indexScope cursor s) := by
  have hcollections : ∀ state : RowState, Appends (do
      let maps ← row.writeCollections cursor state
      return { state with maps }) :=
    fun state => (appends_writeCollections state).bind fun _ => appends_pure _
  have heq : row.writePrologue cursor = (do
      let indices ← row.declareIndices cursor
      let state : RowState := { indices := indices.reverse }
      let maps ← row.writeCollections cursor state
      return { state with maps }) := rfl
  rw [heq, written_bind (row.appends_declareIndices cursor) fun _ => hcollections _]
  rfl

variable (cursor s) in
theorem collectsAt {r : RelatedRows} (hr : r ∈ row.relations) :
    r.CollectsAt cursor (keyIndex (row.state cursor s) r)
      (written (row.writeCollections cursor (row.indexState cursor s)) (row.indexScope cursor s)) := by
  have hsteps := forall₂_mapM
    (fun r => r.appends_writePrefetch cursor (keyIndex (row.indexState cursor s) r)) row.relations
    (row.indexScope cursor s)
  obtain ⟨map, -, t, -, hwritten⟩ := exists_of_forall₂_right hsteps.flip hr
  exact ⟨t, hwritten, r.occurs_writePrefetch cursor _ t⟩

variable (row cursor) in
def writeFields (state : RowState) : Emit Values :=
  row.fields.mapM fun f => do
    return (f.display, ← f.writeRead (state.indices.lookup f.column) cursor)

variable (cursor) in
def lookUp (state : RowState) (entry : RelatedRows × String) : Emit (String × String) := do
  let found ← entry.1.writeLookup entry.2 cursor (keyIndex state entry.1)
  return (".".intercalate entry.1.path, found)

variable (row cursor) in
def writeRelated (state : RowState) : Emit Values :=
  (row.relations.zip state.maps).mapM (lookUp cursor state)

variable (cursor) in
theorem appends_lookUp (state : RowState) (entry : RelatedRows × String) :
    Appends (lookUp cursor state entry) :=
  (entry.1.appends_writeLookup entry.2 cursor _).bind fun _ => appends_pure _

theorem written_lookUp (state : RowState) (entry : RelatedRows × String) (t : Scope) :
    written (lookUp cursor state entry) t =
      written (entry.1.writeLookup entry.2 cursor (keyIndex state entry.1)) t :=
  written_bind_pure _ _ _

theorem appends_writeFields (state : RowState) : Appends (row.writeFields cursor state) :=
  Appends.mapM (fun f => (f.appends_writeRead _ cursor).bind fun _ => appends_pure _) _

theorem appends_writeRelated (state : RowState) : Appends (row.writeRelated cursor state) :=
  Appends.mapM (appends_lookUp cursor state) _

variable (row cursor) in
theorem write_eq (out : String) (state : RowState) :
    row.write out cursor state = (do
      let fields ← row.writeFields cursor state
      let related ← row.writeRelated cursor state
      Emit.statement (out ++ " = " ++ recordLiteral (fields ++ related).reverse [] row.shape)) := rfl

variable (row cursor) in
/-- The code for a row reads its fields, and then its related rows. -/
theorem written_write_infix (out : String) (state : RowState) (s' : Scope) :
    written (row.writeFields cursor state) s' <:+: written (row.write out cursor state) s' ∧
      ∃ t, written (row.writeRelated cursor state) t <:+: written (row.write out cursor state) s' := by
  rw [write_eq, written_bind (appends_writeFields state) fun _ =>
      (appends_writeRelated state).bind fun _ => appends_statement _,
    written_bind (appends_writeRelated state) fun _ => appends_statement _]
  exact ⟨(List.prefix_append _ _).isInfix, _, List.infix_append' _ _ _⟩

theorem length_maps : row.relations.length = (row.state cursor s).maps.length := by
  rw [state_eq]
  exact (forall₂_mapM
    (fun r => r.appends_writePrefetch cursor (keyIndex (row.indexState cursor s) r))
    row.relations (row.indexScope cursor s)).length_eq

variable (cursor s) in
theorem looksUpAt (out : String) {r : RelatedRows} (hr : r ∈ row.relations) (s' : Scope) :
    r.LooksUpAt cursor (keyIndex (row.state cursor s) r)
      (written (row.write out cursor (row.state cursor s)) s') := by
  generalize hstate : row.state cursor s = state
  have hlength : row.relations.length = state.maps.length := hstate ▸ length_maps
  have hzip : r ∈ (row.relations.zip state.maps).map Prod.fst := by
    rwa [List.map_fst_zip (Nat.le_of_eq hlength)]
  obtain ⟨⟨_, map⟩, hmem, rfl⟩ := List.mem_map.1 hzip
  obtain ⟨-, t, hrelated⟩ := row.written_write_infix cursor out state s'
  have hsteps := forall₂_mapM (appends_lookUp cursor state)
    (row.relations.zip state.maps) t
  obtain ⟨_, -, t', -, hwritten⟩ := exists_of_forall₂_right hsteps.flip hmem
  rw [written_lookUp] at hwritten
  exact ⟨map, t', hwritten.trans hrelated, RelatedRows.occurs_writeLookup _ map cursor _ t'⟩

end RecordRow

/-- The key of related rows is read from its column: the index of the column is declared first, and
the collection of the keys and the look-up both read the key there. -/
def RecordRow.KeyFromColumn (row : RecordRow) (r : RelatedRows) (cursor out : String)
    (s s' : Scope) : Prop :=
  ∃ index, (row.state cursor s).knownIndex? r.parentColumn = some index ∧
    (∃ before depth after, written (row.writePrologue cursor) s =
        before ++ (depth, indexLine cursor index r.parentColumn) :: after ∧
      r.CollectsAt cursor index after) ∧
    r.LooksUpAt cursor index (written (row.write out cursor (row.state cursor s)) s')

section KeyIndex

variable {shape : Shape} {info : Option Sql.ResultInfo} {row : RecordRow} {r : RelatedRows}
  (cursor : String) (s : Scope)

theorem mem_readFields {f : BoundField} :
    f ∈ row.readFields ↔ f ∈ row.fields ∧ f.column ∈ row.mapping.usedColumns := by
  simp [RecordRow.readFields]

theorem knownIndex?_state (column : String) :
    (row.state cursor s).knownIndex? column = (row.indexState cursor s).knownIndex? column := by
  rw [RecordRow.state_eq]
  rfl

theorem knownIndex?_of_reported (h : row.Follows shape info) (hr : r ∈ row.relations)
    (hreported : ∀ i, info = some i → r.parentColumn ∈ i.columnNames) :
    ∃ index depth, (row.state cursor s).knownIndex? r.parentColumn = some index ∧
      (depth, indexLine cursor index r.parentColumn) ∈ written (row.declareIndices cursor) s := by
  obtain ⟨f, hf, hcolumn, -⟩ := h.parentField hr
  have hused : f ∈ row.readFields := by
    rw [← hcolumn] at hreported
    exact mem_readFields.2 ⟨hf, (h.used_iff f hf).2 hreported⟩
  obtain ⟨index, depth, hlookup, hline⟩ := RecordRow.lookup_parentColumn hr hused hcolumn
  refine ⟨index, depth, ?_, hline⟩
  rw [knownIndex?_state, RowState.knownIndex?, hlookup]

/-- A parent column that the result lacks has no index, and then the key may be absent. -/
theorem knownIndex?_of_unreported (h : row.Follows shape info) (hr : r ∈ row.relations)
    {i : Sql.ResultInfo} (hinfo : info = some i) (hlacks : r.parentColumn ∉ i.columnNames) :
    (row.state cursor s).knownIndex? r.parentColumn = none ∧ r.parentOptional = true := by
  have hunused : ∀ f ∈ row.fields, f.column = r.parentColumn →
      f.column ∉ row.mapping.usedColumns := by
    intro f hf hcolumn hused
    exact hlacks (hcolumn ▸ (h.used_iff f hf).1 hused i hinfo)
  have hunread : ∀ f ∈ row.readFields, f.column ≠ r.parentColumn := by
    intro f hf hcolumn
    obtain ⟨hf, hused⟩ := mem_readFields.1 hf
    exact hunused f hf hcolumn hused
  constructor
  · rw [knownIndex?_state, RowState.knownIndex?, RecordRow.lookup_unread hunread]
  · obtain ⟨f, hf, hcolumn, hoptional⟩ := h.parentField hr
    rw [hoptional, h.optional f hf (hunused f hf hcolumn)]
    rfl

end KeyIndex

/-- The key of related rows is read from its column exactly when the result is unknown or has that
column. Otherwise no index of the column is known, and a key that may be absent is read from the
first column. -/
theorem keyFromColumn_iff {store : Store} {shape : Shape} {info : Option Sql.ResultInfo}
    {row : RecordRow} (h : (RecordRow.resolve store shape info).Gives row) {r : RelatedRows}
    (hr : r ∈ row.relations) (cursor out : String) (s s' : Scope) :
    (row.KeyFromColumn r cursor out s s' ↔ ∀ i, info = some i → r.parentColumn ∈ i.columnNames) ∧
    (∀ i, info = some i → r.parentColumn ∉ i.columnNames →
      r.parentOptional = true ∧ (row.state cursor s).knownIndex? r.parentColumn = none ∧
      r.CollectsAt cursor "0" (written (row.writePrologue cursor) s) ∧
      r.LooksUpAt cursor "0" (written (row.write out cursor (row.state cursor s)) s')) := by
  have hfollows := follows_of_gives h
  have hcollects := RecordRow.collectsAt cursor s hr
  have hlooks := RecordRow.looksUpAt cursor s out hr s'
  constructor
  · constructor
    · rintro ⟨index, hindex, -⟩ i hinfo
      by_contra hlacks
      obtain ⟨hnone, -⟩ := knownIndex?_of_unreported cursor s hfollows hr hinfo hlacks
      exact absurd (hindex.symm.trans hnone) nofun
    · intro hreported
      obtain ⟨index, depth, hindex, hline⟩ := knownIndex?_of_reported cursor s hfollows hr hreported
      have hkey : RecordRow.keyIndex (row.state cursor s) r = index := by
        rw [RecordRow.keyIndex, hindex, Option.getD_some]
      rw [hkey] at hcollects hlooks
      obtain ⟨before, after, hlines⟩ := List.append_of_mem hline
      have hsetup := row.written_writePrologue cursor s
      rw [hlines, List.append_assoc, List.cons_append] at hsetup
      exact ⟨index, hindex, ⟨before, depth, _, hsetup,
        hcollects.mono (List.suffix_append after _).isInfix⟩, hlooks⟩
  · intro i hinfo hlacks
    obtain ⟨hnone, hoptional⟩ := knownIndex?_of_unreported cursor s hfollows hr hinfo hlacks
    have hkey : RecordRow.keyIndex (row.state cursor s) r = "0" := by
      rw [RecordRow.keyIndex, hnone, Option.getD_none]
    rw [hkey] at hcollects hlooks
    refine ⟨hoptional, hnone, hcollects.mono ?_, hlooks⟩
    rw [RecordRow.written_writePrologue]
    exact (List.suffix_append _ _).isInfix

/-- Players of teams; a player may have none. -/
def teamStore : Store where
  decls := { entities := [{
    record := { name := "Team", fields := [
      { name := "id", type := .simple "i64" }, { name := "name", type := .string }] } }] }
  maxHops := 2
  custom := []

def playerShape : Shape :=
  .mk (.simple "Player")
    [{ name := "id", type := .simple "i64" },
      { name := "team_id", type := .optionOf (.simple "i64") }]
    [{ member := "team", type := .optionOf (.simple "Team"), entity := "Team"
       parentColumn := "team_id", entityColumn := "id" }] []

def playerScope : Scope := { members := { className := "PlayerDao" } }

/-- A query without the column of the team reads the team whose number is the player's own. -/
theorem keyFromColumn_player : ∃ row r,
    (RecordRow.resolve teamStore playerShape (some { columns := [⟨"id", none⟩] })).Gives row ∧
    r ∈ row.relations ∧ r.parentColumn = "team_id" ∧
    ¬row.KeyFromColumn r "_cursor" "_out" playerScope playerScope ∧
    r.LooksUpAt "_cursor" "0"
      (written (row.write "_out" "_cursor" (row.state "_cursor" playerScope)) playerScope) := by
  let info : Sql.ResultInfo := { columns := [⟨"id", none⟩] }
  have hcolumns : ((RecordRow.resolve teamStore playerShape (some info)).run.run {}).1.map
      (fun row => row.relations.map RelatedRows.parentColumn) = some ["team_id"] := by
    decide +kernel
  obtain ⟨row, hrow, hrelations⟩ := Option.map_eq_some_iff.1 hcolumns
  obtain ⟨r, hr, hcolumn⟩ := List.map_eq_singleton_iff.1 hrelations
  have hmem : r ∈ row.relations := by
    rw [hr]
    exact List.mem_singleton_self r
  have hlacks : r.parentColumn ∉ info.columnNames := by
    rw [hcolumn]
    decide
  obtain ⟨hiff, hfirst⟩ := keyFromColumn_iff ⟨{}, hrow⟩ hmem "_cursor" "_out" playerScope playerScope
  obtain ⟨-, -, -, hlooks⟩ := hfirst info rfl hlacks
  exact ⟨row, r, ⟨{}, hrow⟩, hmem, hcolumn, fun hkey => hlacks (hiff.1 hkey info rfl), hlooks⟩

end DataAccess.Rows
