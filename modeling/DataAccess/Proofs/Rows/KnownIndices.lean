import DataAccess.Proofs.Rows.AbsentReads
import DataAccess.Proofs.Rows.ColumnPartition
import DataAccess.Proofs.Rows.RelationKeys

/-!
Whether the index of a required field is certain. Indices are kept by column, and of several fields
with one column the last one decides: when nothing is known of the result, an optional field behind
a required one takes its certain index away, unless the column is the key of a relation.
-/

set_option autoImplicit false

namespace DataAccess.Rows

open Code Emit Schema
open DataAccess.Convert

/-- What is found by a key, of two lists whose members correspond. -/
theorem rel_lookup {α β : Type} (key : α → String) {R : α → β → Prop} {as : List α}
    {entries : List (String × β)} (column : String)
    (h : List.Forall₂ (fun a entry => entry.1 = key a ∧ R a entry.2) as entries) :
    Option.Rel R (as.find? (key · = column)) (entries.lookup column) := by
  induction h with
  | nil => exact .none
  | @cons a entry as entries hentry _ ih =>
    obtain ⟨name, b⟩ := entry
    obtain ⟨rfl, hb⟩ := hentry
    by_cases hkey : key a = column
    · simpa [hkey] using Option.Rel.some hb
    · have hkey' : (column == key a) = false := beq_eq_false_iff_ne.2 fun h => hkey h.symm
      simpa [hkey, List.lookup_cons, hkey'] using ih

theorem knownIndex?_eq_some {state : RowState} {column index : String} :
    state.knownIndex? column = some index ↔ state.indices.lookup column = some (.known index) := by
  unfold RowState.knownIndex?
  split
  · simp_all
  · simp_all

namespace RecordRow

variable {row : RecordRow} {cursor : String} {s : Scope}

variable (row) in
/-- The index that a field asks for is one of a column that is there for certain. -/
def isCertain (f : BoundField) : Bool :=
  row.isChecked || f.isRequired || row.isRelationParent f.column

variable (row) in
/-- The last of the fields with a column. -/
def lastField? (column : String) : Option BoundField :=
  row.fields.reverse.find? (·.column = column)

theorem run_declareIndex (f : BoundField) (t : Scope) :
    ((row.declareIndex cursor f).run t).1.1 = f.column ∧
      ((∃ index, ((row.declareIndex cursor f).run t).1.2 = .known index) ↔
        row.isCertain f = true) := by
  refine ⟨rfl, ?_⟩
  have hindex : ((row.declareIndex cursor f).run t).1.2 =
      ((CursorIndex.declare f (row.isCertain f) cursor).run t).1 := rfl
  rw [hindex]
  cases row.isCertain f with
  | true => exact iff_of_true ⟨_, rfl⟩ rfl
  | false => exact iff_of_false (fun ⟨_, hknown⟩ => CursorIndex.noConfusion hknown) nofun

/-- The fields that are read from a used column are all that have it. -/
theorem find?_readFields {column : String} (hused : column ∈ row.mapping.usedColumns) :
    row.readFields.reverse.find? (·.column = column) = row.lastField? column := by
  rw [readFields, ← List.filter_reverse, List.find?_filter, lastField?]
  refine congrArg (List.find? · _) (funext fun f => ?_)
  by_cases hcolumn : f.column = column
  · simp [hcolumn, hused]
  · simp [hcolumn]

variable (cursor s) in
/-- The index of a column is that of the last field that has it. -/
theorem rel_lastField {column : String} (hused : column ∈ row.mapping.usedColumns) :
    Option.Rel (fun f index => (∃ name, index = .known name) ↔ row.isCertain f = true)
      (row.lastField? column) ((row.state cursor s).indices.lookup column) := by
  have hsteps := forall₂_mapM (row.appends_declareIndex cursor) row.readFields s
  have hentries : List.Forall₂ (fun (f : BoundField) (entry : String × CursorIndex) =>
      entry.1 = f.column ∧ ((∃ name, entry.2 = .known name) ↔ row.isCertain f = true))
      row.readFields ((row.declareIndices cursor).run s).1 :=
    hsteps.imp fun f entry ⟨t, hentry, _⟩ => hentry ▸ run_declareIndex f t
  rw [← find?_readFields hused]
  exact rel_lookup BoundField.column column (List.rel_reverse hentries)

end RecordRow

/-- The last of the fields of a shape with a column. -/
def lastField? (shape : Shape) (column : String) : Option FieldPath :=
  shape.allFields.reverse.find? (·.field.columnName = column)

/-- The column of each required field is the key of a relation, or the last field with it is
required as well. -/
def KeepsRequired (shape : Shape) : Prop :=
  ∀ f ∈ shape.allFields, f.field.isRequired = true →
    (∃ declared ∈ shape.allRelations, declared.2.parentColumn = f.field.columnName) ∨
      ∃ last, lastField? shape f.field.columnName = some last ∧ last.field.isRequired = true

/-- The index of each required field is known. -/
def RecordRow.KnowsRequired (row : RecordRow) (state : RowState) : Prop :=
  ∀ f ∈ row.fields, f.isRequired = true → ∃ index, state.knownIndex? f.column = some index

section Resolved

variable {store : Store} {shape : Shape} {info : Option Sql.ResultInfo} {row : RecordRow}

theorem isChecked_of_gives (h : (RecordRow.resolve store shape info).Gives row) :
    row.isChecked = info.isSome := by
  cases info with
  | some info => exact (gives_recordRow_iff.1 h).isChecked
  | none =>
    rw [resolve_recordRow_unchecked] at h
    obtain ⟨fields, -, h⟩ := h.of_bind
    rw [finishRecord_readable] at h
    obtain ⟨relations, -, h⟩ := h.of_bind
    rw [eq_of_gives_pure h]
    rfl

theorem bindFields_of_gives (h : (RecordRow.resolve store shape info).Gives row) :
    (bindFields store shape).Gives row.fields := by
  cases info with
  | some info => exact (gives_recordRow_iff.1 h).fields
  | none =>
    rw [resolve_recordRow_unchecked] at h
    obtain ⟨fields, hfields, h⟩ := h.of_bind
    obtain ⟨-, -, rfl, -⟩ := of_gives_finishRecord h
    exact hfields

theorem isRelationParent_iff (h : (RecordRow.resolve store shape info).Gives row)
    (column : String) : row.isRelationParent column = true ↔
      ∃ declared ∈ shape.allRelations, declared.2.parentColumn = column := by
  have hrelated := (related_of_gives h).2
  simp only [RecordRow.isRelationParent, List.any_eq_true, decide_eq_true_eq]
  constructor
  · rintro ⟨r, hr, hcolumn⟩
    obtain ⟨declared, hmem, hresolve⟩ := exists_of_forall₂_right hrelated hr
    obtain ⟨-, hrelation, -⟩ := relatedRows_of_gives hresolve
    exact ⟨declared, hmem, hrelation ▸ hcolumn⟩
  · rintro ⟨declared, hmem, hcolumn⟩
    obtain ⟨r, hr, hresolve⟩ := exists_of_forall₂_right hrelated.flip hmem
    obtain ⟨-, hrelation, -⟩ := relatedRows_of_gives hresolve
    exact ⟨r, hr, by rw [RelatedRows.parentColumn, hrelation, hcolumn]⟩

theorem lastField?_eq (h : row.Follows shape info) (column : String) :
    lastField? shape column = (row.lastField? column).map BoundField.place := by
  rw [lastField?, ← h.places, ← List.map_reverse, List.find?_map, RecordRow.lastField?]
  rfl

theorem mem_usedColumns_of_required (h : row.Follows shape info) {f : BoundField}
    (hf : f ∈ row.fields) (hrequired : f.isRequired = true) :
    f.column ∈ row.mapping.usedColumns := by
  by_contra hunused
  simp [h.optional f hf hunused] at hrequired

variable (cursor : String) (s : Scope)

/-- The column of a required field has an index, which is that of the last field with the column. -/
theorem index_of_required (h : row.Follows shape info) {f : BoundField} (hf : f ∈ row.fields)
    (hrequired : f.isRequired = true) : ∃ last index,
    row.lastField? f.column = some last ∧
      (row.state cursor s).indices.lookup f.column = some index ∧
      ((∃ name, index = .known name) ↔ row.isCertain last = true) := by
  have hfound : (row.lastField? f.column).isSome = true :=
    List.find?_isSome.2 ⟨f, List.mem_reverse.2 hf, by simp⟩
  have hrel := RecordRow.rel_lastField cursor s (mem_usedColumns_of_required h hf hrequired)
  -- Both are found, or neither is; the field itself is found.
  generalize (row.state cursor s).indices.lookup f.column = index at hrel
  generalize row.lastField? f.column = last at hrel hfound
  cases hrel with
  | none => exact absurd hfound nofun
  | some hknown => exact ⟨_, _, rfl, rfl, hknown⟩

/-- A required field without a known index has that of an optional field. -/
theorem exists_optional_index (h : row.Follows shape info) {f : BoundField} (hf : f ∈ row.fields)
    (hrequired : f.isRequired = true)
    (hunknown : ¬∃ index, (row.state cursor s).knownIndex? f.column = some index) :
    ∃ index, (row.state cursor s).indices.lookup f.column = some (.optional index) := by
  obtain ⟨-, index, -, hindex, -⟩ := index_of_required cursor s h hf hrequired
  simp only [knownIndex?_eq_some] at hunknown
  cases index with
  | known name => exact absurd ⟨name, hindex⟩ hunknown
  | optional name => exact ⟨name, hindex⟩

/-- The last field with the column of a field asks for a certain index if all of them do, or that field
does, or the relations do. -/
theorem exists_certain_iff (h : (RecordRow.resolve store shape info).Gives row) {f : BoundField}
    (hf : f ∈ row.fields) :
    (∃ last, row.lastField? f.column = some last ∧ row.isCertain last = true) ↔
      info.isSome = true ∨
      (∃ declared ∈ shape.allRelations, declared.2.parentColumn = f.column) ∨
      ∃ last, lastField? shape f.column = some last ∧ last.field.isRequired = true := by
  have hfound : (row.lastField? f.column).isSome = true :=
    List.find?_isSome.2 ⟨f, List.mem_reverse.2 hf, by simp⟩
  obtain ⟨last, hlast⟩ := Option.isSome_iff_exists.1 hfound
  have hcolumn : last.column = f.column := by simpa using List.find?_some hlast
  rw [lastField?_eq (follows_of_gives h), hlast, ← isRelationParent_iff h,
    ← isChecked_of_gives h]
  simp only [Option.some.injEq, exists_eq_left', Option.map_some, RecordRow.isCertain,
    Bool.or_eq_true, hcolumn, BoundField.isRequired]
  exact or_assoc.trans (or_congr_right or_comm)

theorem exists_knownIndex?_iff (h : (RecordRow.resolve store shape info).Gives row)
    {f : BoundField} (hf : f ∈ row.fields) (hrequired : f.isRequired = true) :
    (∃ index, (row.state cursor s).knownIndex? f.column = some index) ↔
      info.isSome = true ∨
      (∃ declared ∈ shape.allRelations, declared.2.parentColumn = f.column) ∨
      ∃ last, lastField? shape f.column = some last ∧ last.field.isRequired = true := by
  obtain ⟨last, index, hlast, hindex, hknown⟩ :=
    index_of_required cursor s (follows_of_gives h) hf hrequired
  rw [← exists_certain_iff h hf]
  simp only [knownIndex?_eq_some, hlast, hindex]
  simpa using hknown

theorem knowsRequired_iff (h : (RecordRow.resolve store shape info).Gives row) :
    row.KnowsRequired (row.state cursor s) ↔ (info = none → KeepsRequired shape) := by
  rw [KeepsRequired, ← (follows_of_gives h).places, List.forall_mem_map]
  constructor
  · rintro hknows rfl f hf hrequired
    have hcertain := (exists_knownIndex?_iff cursor s h hf hrequired).1 (hknows f hf hrequired)
    exact hcertain.resolve_left nofun
  · intro hkeeps f hf hrequired
    refine (exists_knownIndex?_iff cursor s h hf hrequired).2 ?_
    cases info with
    | some info => exact .inl rfl
    | none => exact .inr (hkeeps rfl f hf hrequired)

theorem fits_of_gives (h : (RecordRow.resolve store shape info).Gives row)
    (hnames : ∀ f ∈ shape.allFields, PlainFragment f.fragment) : ∀ f ∈ row.fields, f.Fits := by
  intro f hf
  have hplace : f.place ∈ shape.allFields :=
    (follows_of_gives h).places ▸ List.mem_map_of_mem hf
  obtain ⟨place, -, rfl, hreader⟩ :=
    exists_of_forall₂_right (gives_bindFields_iff.1 (bindFields_of_gives h)) hf
  obtain ⟨hfits, htype⟩ := Store.reader_fits hreader
  exact ⟨hnames _ hplace, hfits, htype⟩

theorem parentReader_fits (h : (RecordRow.resolve store shape info).Gives row) :
    ∀ r ∈ row.relations, r.parentReader.Fits := by
  intro r hr
  obtain ⟨declared, -, hresolve⟩ := exists_of_forall₂_right (related_of_gives h).2 hr
  obtain ⟨-, -, ⟨parent, hkeyed⟩, -⟩ := relatedRows_of_gives hresolve
  exact (Store.reader_fits hkeyed.parentReader).1

/-- The reading of each field stands in the code for a row. -/
theorem written_writeRead_infix (out : String) (state : RowState) {f : BoundField}
    (hf : f ∈ row.fields) : ∃ t,
    written (f.writeRead (state.indices.lookup f.column) cursor) t <:+:
      written (row.write out cursor state) s := by
  have hread : ∀ f : BoundField, Appends (do
      let name ← f.writeRead (state.indices.lookup f.column) cursor
      return (f.display, name)) :=
    fun f => (f.appends_writeRead _ cursor).bind fun _ => appends_pure _
  obtain ⟨_, -, t, -, hwritten⟩ := exists_of_forall₂_right (forall₂_mapM hread row.fields s).flip hf
  rw [written_bind_pure] at hwritten
  exact ⟨t, hwritten.trans (row.written_write_infix cursor out state s).1⟩

variable (out : String) (s' : Scope)

theorem noneFits_write (h : (RecordRow.resolve store shape info).Gives row)
    (hnames : ∀ f ∈ shape.allFields, PlainFragment f.fragment) {state : RowState}
    (hknows : row.KnowsRequired state) : NoneFits [] (texts (row.write out cursor state) s') := by
  have hcertain : ∀ f ∈ row.fields, f.CertainAt (state.indices.lookup f.column) := by
    intro f hf hrequired
    simpa only [knownIndex?_eq_some] using hknows f hf hrequired
  have hcareful : Careful Names.empty (row.write out cursor state) :=
    row.careful_write out state (fun f hf => ⟨fits_of_gives h hnames f hf, hcertain f hf⟩)
      (parentReader_fits h)
  exact (hcareful.fits fun _ hknown => absurd rfl hknown).fits [] nofun

/-- A required field without a known index is set to `None` where its column is lacking. -/
theorem noneMisfits_write (h : (RecordRow.resolve store shape info).Gives row)
    (hnames : ∀ f ∈ shape.allFields, PlainFragment f.fragment)
    (hlacks : ¬row.KnowsRequired (row.state cursor s)) :
    NoneMisfits (texts (row.write out cursor (row.state cursor s)) s') := by
  simp only [RecordRow.KnowsRequired, not_forall] at hlacks
  obtain ⟨f, hf, hrequired, hunknown⟩ := hlacks
  obtain ⟨index, hindex⟩ :=
    exists_optional_index cursor s (follows_of_gives h) hf hrequired hunknown
  obtain ⟨scope, hinfix⟩ := written_writeRead_infix cursor s' out (row.state cursor s) hf
  rw [hindex] at hinfix
  obtain ⟨name, added, htexts, hname, hkept⟩ :=
    BoundField.texts_writeRead cursor (fits_of_gives h hnames f hf) index scope
  obtain ⟨front, back, hcode⟩ : texts _ scope <:+: texts _ s' := hinfix.map Prod.snd
  have hlet : ¬Starts "let " (name ++ " = None;") :=
    not_starts_let "_" (hname.append _) (by decide)
  refine ⟨front ++ declaration name f.place.field.type :: added, name ++ " = None;", "\x7d" :: back,
    name, f.place.field.type, ?_, ⟨.inl rfl, hlet⟩, ⟨front, added, rfl, hkept⟩, ?_⟩
  · rw [← hcode, htexts]
    simp
  · simpa [BoundField.isRequired, Field.isRequired] using hrequired

/-- When a row is read, the index of each required field is known exactly when the columns of the
result are, or the last field with its column is required as well, or the column is the key of a
relation. Then the code sets only optional variables to `None`, and otherwise it sets one to `None`
whose type is not optional. The members have names that no other variable is given. -/
theorem knowsRequired_iff_noneFits (h : (RecordRow.resolve store shape info).Gives row)
    (hnames : ∀ f ∈ shape.allFields, PlainFragment f.fragment) :
    let state := row.state cursor s
    let code := texts (row.write out cursor state) s'
    (row.KnowsRequired state ↔ (info = none → KeepsRequired shape)) ∧
    (row.KnowsRequired state → NoneFits [] code) ∧
    (¬row.KnowsRequired state → NoneMisfits code) :=
  ⟨knowsRequired_iff cursor s h, noneFits_write cursor out s' h hnames,
    noneMisfits_write cursor s out s' h hnames⟩

end Resolved

def contactScope : Scope := { members := { className := "ContactDao" } }

/-- Nothing is known of the result, and the alias, which may be absent, is read from the column of
the name. So the name is set to `None` where that column is lacking. -/
theorem knowsRequired_contact : ∃ row code,
    ((RecordRow.resolve contactStore contactShape none).run.run {}).1 = some row ∧
    code = texts (row.write "_out" "_cursor" (row.state "_cursor" contactScope)) contactScope ∧
    code.take 5 =
      ["let _tmp_name: String;", "if let Some(_index) = _cursor_index_of_alias \x7b",
        "_tmp_name = _cursor.get_string(_index);", "\x7d else \x7b", "_tmp_name = None;"] ∧
    ¬row.KnowsRequired (row.state "_cursor" contactScope) ∧ NoneMisfits code := by
  have hresolved : ((RecordRow.resolve contactStore contactShape none).run.run {}).1.map (fun row =>
      (texts (row.write "_out" "_cursor" (row.state "_cursor" contactScope)) contactScope).take 5) =
      some ["let _tmp_name: String;", "if let Some(_index) = _cursor_index_of_alias \x7b",
        "_tmp_name = _cursor.get_string(_index);", "\x7d else \x7b", "_tmp_name = None;"] := by
    decide +kernel
  obtain ⟨row, hrow, hcode⟩ := Option.map_eq_some_iff.1 hresolved
  have hletters : ∀ f ∈ contactShape.allFields, ':' ∉ f.fragment.toList ∧
      f.fragment.toList.any (!·.isDigit) = true := by
    decide +kernel
  have hloses : ¬KeepsRequired contactShape := by
    intro hkeeps
    have hlast : (lastField? contactShape "name").map (·.field.isRequired) = some false := by
      decide +kernel
    rcases hkeeps ⟨["name"], { name := "name", type := .string }⟩ (by decide +kernel) rfl with
      ⟨declared, hmem, -⟩ | ⟨last, hfound, hrequired⟩
    · have hnone : contactShape.allRelations = [] := rfl
      simp [hnone] at hmem
    · have hname : lastField? contactShape "name" = some last := hfound
      rw [hname] at hlast
      simp [hrequired] at hlast
  obtain ⟨hiff, -, hmixed⟩ := knowsRequired_iff_noneFits "_cursor" contactScope "_out" contactScope
    ⟨{}, hrow⟩ fun f hf => plainFragment_of_letter (hletters f hf).1 (hletters f hf).2
  have hlacks := fun hknows => hloses (hiff.1 hknows rfl)
  exact ⟨row, _, hrow, rfl, hcode, hlacks, hmixed hlacks⟩

end DataAccess.Rows
