import DataAccess.Proofs.Diagnostics.Reports
import DataAccess.Proofs.Schema.Embedding
import DataAccess.Rows.Result

/-!
How a result is resolved, and what becomes of it when the reported columns change. Only the mapping of
the columns depends on them, so that a result that was resolved for all columns is resolved for the
ones it reads as well.
-/

set_option autoImplicit false

namespace DataAccess.Rows

open Code Schema
open DataAccess.Convert

theorem nodup_eraseDups {α : Type} [BEq α] [LawfulBEq α] (xs : List α) : xs.eraseDups.Nodup := by
  match xs with
  | [] => simp
  | x :: xs =>
    rw [List.eraseDups_cons, List.nodup_cons]
    refine ⟨fun hx => ?_, nodup_eraseDups _⟩
    simpa using (List.mem_filter.1 (List.mem_eraseDups.1 hx)).2
termination_by xs.length
decreasing_by
  simp only [List.length_cons]
  exact Nat.lt_succ_of_le (List.length_filter_le ..)

theorem eraseDups_of_nodup {α : Type} [BEq α] [LawfulBEq α] {xs : List α} (h : xs.Nodup) :
    xs.eraseDups = xs := by
  induction xs with
  | nil => rfl
  | cons x xs ih =>
    obtain ⟨hx, hxs⟩ := List.nodup_cons.1 h
    have hfilter : xs.filter (fun y => !y == x) = xs := by
      refine List.filter_eq_self.2 fun y hy => ?_
      have : y ≠ x := fun he => hx (he ▸ hy)
      simpa using this
    rw [List.eraseDups_cons, hfilter, ih hxs]

namespace Mapping

variable (fields : List BoundField) (columns : List String)

theorem nodup_usedColumns : (ofColumns fields columns).usedColumns.Nodup :=
  (nodup_eraseDups columns).filter _

theorem mem_usedColumns {c : String} :
    c ∈ (ofColumns fields columns).usedColumns ↔
      c ∈ columns ∧ fields.any (·.column = c) = true := by
  simp [ofColumns, List.mem_eraseDups]

/-- The columns that are read are all read again, and no other. -/
theorem ofColumns_usedColumns :
    ofColumns fields (ofColumns fields columns).usedColumns =
      { ofColumns fields columns with unusedColumns := [] } := by
  have hread : ∀ c ∈ (ofColumns fields columns).usedColumns, fields.any (·.column = c) = true :=
    fun c hc => ((mem_usedColumns fields columns).1 hc).2
  have hdups := eraseDups_of_nodup (nodup_usedColumns fields columns)
  have hcontains : ∀ f ∈ fields, (ofColumns fields columns).usedColumns.contains f.column =
      columns.contains f.column := by
    intro f hf
    have hany : fields.any (·.column = f.column) = true :=
      List.any_eq_true.2 ⟨f, hf, by simp⟩
    rw [Bool.eq_iff_iff]
    simp only [List.contains_iff_mem, mem_usedColumns, hany, and_true]
  have hused : (ofColumns fields (ofColumns fields columns).usedColumns).usedColumns =
      (ofColumns fields columns).usedColumns := by
    rw [ofColumns, hdups]
    exact List.filter_eq_self.2 hread
  have hunused : (ofColumns fields (ofColumns fields columns).usedColumns).unusedColumns = [] := by
    rw [ofColumns, hdups]
    exact List.filter_eq_nil_iff.2 fun c hc => by simp [hread c hc]
  have hfields : (ofColumns fields (ofColumns fields columns).usedColumns).unusedFields =
      (ofColumns fields columns).unusedFields := by
    refine congrArg (List.map BoundField.display) (List.filter_congr fun f hf => ?_)
    exact congrArg (!·) (hcontains f hf)
  have heta : ∀ m : Mapping, m = ⟨m.usedColumns, m.unusedColumns, m.unusedFields⟩ := fun _ => rfl
  rw [heta (ofColumns fields _), hused, hunused, hfields]

end Mapping

/-- The problems of reading rows. -/
def IsRowProblem : Problem → Prop
  | .noResultAdapter _ | .missingRequiredFields .. | .cursorMismatch .. | .duplicateColumns _
  | .cannotReadField .. | .unknownRecord _ | .optionalEmbedded | .unknownRelationEntity _
  | .relationColumnMissing .. | .relationElementUnsupported _ => True
  | _ => False

theorem findsOnly_resolveShape (decls : Declarations) (t : TypeExpr) :
    FindsOnly IsRowProblem (Attempt.ofExcept (decls.resolveShape t)).run :=
  findsOnly_ofExcept fun p hp => by
    obtain rfl | ⟨name, rfl⟩ := Declarations.problem_of_shapeWithin hp <;> trivial

theorem findsOnly_bindFields (store : Store) (shape : Shape) :
    FindsOnly IsRowProblem (bindFields store shape).run := by
  unfold bindFields
  refine findsOnly_attempt_bind (findsOnly_attempt_mapM (fun place => ?_) _) fun bound =>
    findsOnly_ofOption _
  split
  · exact findsOnly_attempt_pure _
  · exact findsOnly_attempt_bind (findsOnly_attempt_lift (findsOnly_error trivial)) fun _ =>
      findsOnly_attempt_pure _

theorem steady_bindFields (store : Store) (shape : Shape) : Steady (bindFields store shape).run :=
  (findsOnly_bindFields store shape).steady

/-- The fields that must be read but have no column. -/
def missingFields (fields : List BoundField) (mapping : Mapping) : List BoundField :=
  fields.filter fun f => f.isRequired && !mapping.usedColumns.contains f.column

/-- The part of the check that can find errors, and a warning. -/
def checkFields (record : String) (fields : List BoundField) (info : Sql.ResultInfo)
    (mapping : Mapping) : Report Bool := do
  if mapping.usedColumns.isEmpty && !fields.isEmpty then
    Report.error (.noResultAdapter record)
    return false
  if !(missingFields fields mapping).isEmpty then
    Report.error (.missingRequiredFields record
      ((missingFields fields mapping).map BoundField.display) info.columnNames)
    return false
  if !mapping.isExact then
    Report.warn .cursorMismatch (.cursorMismatch record mapping.unusedColumns info.columnNames
      mapping.unusedFields (fields.map BoundField.display))
  return true

section CheckMapping

variable (record : String) (fields : List BoundField) (info : Sql.ResultInfo) (mapping : Mapping)

theorem checkMapping_eq :
    RecordRow.checkMapping record fields info mapping = (do
      if info.hasDuplicateColumns then
        Report.warn .duplicateResultColumns (.duplicateColumns info.duplicateColumns.toList)
      checkFields record fields info mapping) := rfl

/-- Whether the fields of a record can be read from the used columns. -/
def readableFrom : Bool :=
  !(mapping.usedColumns.isEmpty && !fields.isEmpty) && (missingFields fields mapping).isEmpty

theorem yields_warn_if {c : Bool} {kind : Warning} {p : Problem} {β : Type} {rest : Report β} {b : β}
    {n : Nat} (h : Yields rest b n) :
    Yields (do
      if c then Report.warn kind p
      rest) b n := by
  cases c with
  | false => exact h
  | true => exact (yields_warn kind p).andThen h

theorem yields_checkMapping :
    Yields (RecordRow.checkMapping record fields info mapping) (readableFrom fields mapping)
      (if readableFrom fields mapping then 0 else 1) := by
  rw [checkMapping_eq]
  refine yields_warn_if ?_
  unfold checkFields readableFrom
  cases (mapping.usedColumns.isEmpty && !fields.isEmpty) with
  | true => exact (yields_error _).bind (f := fun _ => pure false) (yields_pure false)
  | false =>
    cases (missingFields fields mapping).isEmpty with
    | true => exact yields_warn_if (yields_pure true)
    | false => exact (yields_error _).bind (f := fun _ => pure false) (yields_pure false)

theorem findsOnly_checkMapping :
    FindsOnly IsRowProblem (RecordRow.checkMapping record fields info mapping) := by
  have hunreadable : ∀ {p}, IsRowProblem p →
      FindsOnly IsRowProblem (do Report.error p; return false) :=
    fun hp => (findsOnly_error hp).bind fun _ => findsOnly_pure false
  unfold RecordRow.checkMapping
  refine FindsOnly.checked (findsOnly_warn trivial) ?_
  refine FindsOnly.ite (hunreadable trivial) (FindsOnly.ite (hunreadable trivial) ?_)
  exact FindsOnly.checked (findsOnly_warn trivial) (findsOnly_pure true)

theorem steady_checkMapping : Steady (RecordRow.checkMapping record fields info mapping) :=
  (findsOnly_checkMapping record fields info mapping).steady

end CheckMapping

theorem findsOnly_entityRow (store : Store) (entity : Entity) :
    FindsOnly IsRowProblem (EntityRow.resolve store entity).run := by
  unfold EntityRow.resolve
  refine findsOnly_attempt_bind (findsOnly_resolveShape ..) fun shape => ?_
  exact findsOnly_attempt_bind (findsOnly_bindFields store shape) fun _ => findsOnly_attempt_pure _

theorem steady_entityRow (store : Store) (entity : Entity) :
    Steady (EntityRow.resolve store entity).run := (findsOnly_entityRow store entity).steady

theorem findsOnly_resolveElement (store : Store) (relation : Relation) (entity : Entity)
    (shape : Shape) :
    FindsOnly IsRowProblem (RelatedRows.resolveElement store relation entity shape).run := by
  unfold RelatedRows.resolveElement
  split
  · split
    · split
      · exact findsOnly_attempt_pure _
      · exact findsOnly_reject trivial
    · exact findsOnly_reject trivial
  · split
    · exact findsOnly_attempt_bind (findsOnly_entityRow store entity) fun _ =>
        findsOnly_attempt_pure _
    · exact findsOnly_reject trivial

theorem findsOnly_relatedRows (store : Store) (shape : Shape) (path : List String)
    (relation : Relation) :
    FindsOnly IsRowProblem (RelatedRows.resolve store shape path relation).run := by
  unfold RelatedRows.resolve
  split
  · split
    · refine findsOnly_attempt_unless trivial ?_
      refine findsOnly_attempt_bind (findsOnly_resolveShape ..) fun entityShape => ?_
      refine findsOnly_attempt_unless trivial ?_
      dsimp only
      split
      · exact findsOnly_attempt_bind (findsOnly_resolveElement ..) fun _ => findsOnly_attempt_pure _
      · exact findsOnly_reject trivial
    · exact findsOnly_reject trivial
  · exact findsOnly_reject trivial

theorem steady_relatedRows (store : Store) (shape : Shape) (path : List String)
    (relation : Relation) : Steady (RelatedRows.resolve store shape path relation).run :=
  (findsOnly_relatedRows store shape path relation).steady

/-- The related rows of a record, each of them if it could be resolved. -/
def relatedRows (store : Store) (shape : Shape) : Attempt (List (Option RelatedRows)) :=
  shape.allRelations.mapM fun (path, relation) =>
    (RelatedRows.resolve store shape path relation).run

theorem findsOnly_allRelatedRows (store : Store) (shape : Shape) :
    FindsOnly IsRowProblem (relatedRows store shape).run :=
  findsOnly_attempt_mapM (fun (path, relation) =>
    findsOnly_attempt_lift (findsOnly_relatedRows store shape path relation)) _

theorem steady_allRelatedRows (store : Store) (shape : Shape) :
    Steady (relatedRows store shape).run := (findsOnly_allRelatedRows store shape).steady

/-- What is left to do once the fields of a record are bound and its columns are checked. -/
def finishRecord (store : Store) (shape : Shape) (fields : List BoundField) (mapping : Mapping)
    (isChecked readable : Bool) : Attempt RecordRow := do
  let relations ← relatedRows store shape
  match readable, relations.mapM id with
  | true, some relations => return { shape, fields, relations, mapping, isChecked }
  | _, _ => failure

theorem findsOnly_finishRecord (store : Store) (shape : Shape) (fields : List BoundField)
    (mapping : Mapping) (isChecked readable : Bool) :
    FindsOnly IsRowProblem (finishRecord store shape fields mapping isChecked readable).run := by
  refine findsOnly_attempt_bind (findsOnly_allRelatedRows store shape) fun relations => ?_
  split
  · exact findsOnly_attempt_pure _
  · exact findsOnly_attempt_failure

theorem steady_finishRecord (store : Store) (shape : Shape) (fields : List BoundField)
    (mapping : Mapping) (isChecked readable : Bool) :
    Steady (finishRecord store shape fields mapping isChecked readable).run :=
  (findsOnly_finishRecord store shape fields mapping isChecked readable).steady

theorem resolve_recordRow_checked (store : Store) (shape : Shape) (info : Sql.ResultInfo) :
    RecordRow.resolve store shape (some info) = (do
      let fields ← bindFields store shape
      let mapping := Mapping.ofColumns fields info.columnNames
      let readable ← RecordRow.checkMapping shape.typeName fields info mapping
      finishRecord store shape fields mapping true readable) := rfl

theorem resolve_recordRow_unchecked (store : Store) (shape : Shape) :
    RecordRow.resolve store shape none = (do
      let fields ← bindFields store shape
      finishRecord store shape fields (Mapping.ofFields fields) false true) := rfl

theorem findsOnly_recordRow (store : Store) (shape : Shape) (info : Option Sql.ResultInfo) :
    FindsOnly IsRowProblem (RecordRow.resolve store shape info).run := by
  cases info with
  | none =>
    rw [resolve_recordRow_unchecked]
    exact findsOnly_attempt_bind (findsOnly_bindFields store shape) fun _ =>
      findsOnly_finishRecord ..
  | some info =>
    rw [resolve_recordRow_checked]
    refine findsOnly_attempt_bind (findsOnly_bindFields store shape) fun _ => ?_
    exact findsOnly_attempt_bind (findsOnly_attempt_lift (findsOnly_checkMapping ..)) fun _ =>
      findsOnly_finishRecord ..

theorem steady_recordRow (store : Store) (shape : Shape) (info : Option Sql.ResultInfo) :
    Steady (RecordRow.resolve store shape info).run := (findsOnly_recordRow store shape info).steady

theorem findsOnly_row (store : Store) (t : TypeExpr) (query : Sql.Query) :
    FindsOnly IsRowProblem (Row.resolve store t query).run := by
  unfold Row.resolve
  dsimp only
  split
  · have hrecord : FindsOnly IsRowProblem (do
        let shape ← Attempt.ofExcept (store.decls.resolveShape t)
        return Row.record (← RecordRow.resolve store shape (Row.usableInfo query))).run :=
      findsOnly_attempt_bind (findsOnly_resolveShape ..) fun shape =>
        findsOnly_attempt_bind (findsOnly_recordRow ..) fun _ => findsOnly_attempt_pure _
    split
    · split
      · exact findsOnly_attempt_bind (findsOnly_entityRow ..) fun _ => findsOnly_attempt_pure _
      · exact hrecord
    · exact hrecord
  · exact findsOnly_attempt_bind (findsOnly_ofOption _) fun _ => findsOnly_attempt_pure _

theorem steady_row (store : Store) (t : TypeExpr) (query : Sql.Query) :
    Steady (Row.resolve store t query).run := (findsOnly_row store t query).steady

/-- The reading of a result reports problems of its rows only. -/
theorem findsOnly_result (store : Store) (t : TypeExpr) (query : Sql.Query) :
    FindsOnly IsRowProblem (Result.resolve store t query).run := by
  unfold Result.resolve
  refine findsOnly_attempt_bind (findsOnly_ofOption _) fun (form, rowType) => ?_
  exact findsOnly_attempt_bind (findsOnly_row ..) fun _ => findsOnly_attempt_pure _

theorem steady_result (store : Store) (t : TypeExpr) (query : Sql.Query) :
    Steady (Result.resolve store t query).run := (findsOnly_result store t query).steady

/-- The record as it is read from the columns it uses alone. -/
def RecordRow.narrowed (row : RecordRow) : RecordRow :=
  { row with mapping := { row.mapping with unusedColumns := [] } }

theorem yields_finishRecord {store : Store} {shape : Shape} {fields : List BoundField}
    {mapping : Mapping} {isChecked readable : Bool} {row : RecordRow}
    (h : Yields (finishRecord store shape fields mapping isChecked readable).run (some row) 0) :
    readable = true ∧ row.shape = shape ∧ row.fields = fields ∧ row.mapping = mapping ∧
      ∀ mapping', Yields (finishRecord store shape fields mapping' isChecked true).run
        (some { row with mapping := mapping' }) 0 := by
  obtain ⟨relations, hrelations, hrow⟩ := yields_of_attempt_bind (steady_allRelatedRows store shape)
    (fun relations => by
      split
      · exact steady_attempt_pure _
      · exact steady_attempt_failure) h
  cases readable with
  | false => exact absurd (hrow.unique (yields_pure none)).1 nofun
  | true =>
    cases hid : relations.mapM id with
    | none =>
      simp only [hid] at hrow
      exact absurd (hrow.unique (yields_pure none)).1 nofun
    | some related =>
      simp only [hid] at hrow
      obtain ⟨hsome, -⟩ := hrow.unique (yields_pure (some _))
      obtain rfl := Option.some.inj hsome
      refine ⟨rfl, rfl, rfl, rfl, fun mapping' => ?_⟩
      refine yields_attempt_bind hrelations ?_
      simp only [hid]
      exact yields_pure (some _)

theorem readableFrom_congr {fields : List BoundField} {mapping mapping' : Mapping}
    (h : mapping.usedColumns = mapping'.usedColumns) :
    readableFrom fields mapping = readableFrom fields mapping' := by
  simp only [readableFrom, missingFields, h]

/-- A record that is read without errors is read without errors from the columns it uses. -/
theorem yields_recordRow_narrowed {store : Store} {shape : Shape} {info info' : Sql.ResultInfo}
    {row : RecordRow} (h : Yields (RecordRow.resolve store shape (some info)).run (some row) 0)
    (hcolumns : info'.columnNames = row.mapping.usedColumns) :
    Yields (RecordRow.resolve store shape (some info')).run (some row.narrowed) 0 := by
  rw [resolve_recordRow_checked] at h ⊢
  obtain ⟨fields, hfields, h⟩ := yields_of_attempt_bind (steady_bindFields store shape)
    (fun _ => steady_attempt_bind (steady_attempt_lift (steady_checkMapping ..)) fun _ =>
      steady_finishRecord ..) h
  obtain ⟨readable, hreadable, h⟩ := yields_of_attempt_bind
    (steady_attempt_lift (steady_checkMapping ..)) (fun _ => steady_finishRecord ..) h
  obtain ⟨rfl, rfl, rfl, hmapping, hfinish⟩ := yields_finishRecord h
  have hcheck := hreadable.unique ((yields_checkMapping ..).map some)
  have hread := Option.some.inj hcheck.1
  have hmapping' : Mapping.ofColumns row.fields info'.columnNames = row.narrowed.mapping := by
    rw [hcolumns, hmapping, Mapping.ofColumns_usedColumns, ← hmapping]
    rfl
  refine yields_attempt_bind hfields ?_
  simp only [hmapping']
  have hcheck' := yields_checkMapping row.shape.typeName row.fields info' row.narrowed.mapping
  have hsame : readableFrom row.fields row.narrowed.mapping = true := by
    rw [hread, ← hmapping]
    exact readableFrom_congr rfl
  rw [hsame] at hcheck'
  exact yields_attempt_bind (hcheck'.map some) (hfinish row.narrowed.mapping)

/-- A row of reported columns: a record, or else a single column. -/
theorem resolve_row_checked {store : Store} {t : TypeExpr} {query : Sql.Query}
    {info : Sql.ResultInfo} (hinfo : Row.usableInfo query = some info) :
    Row.resolve store t query =
      if store.decls.isRecordType t then do
        let shape ← Attempt.ofExcept (store.decls.resolveShape t)
        return .record (← RecordRow.resolve store shape (some info))
      else do
        let affinity := do (← info.columns.head?).affinity
        return .column (← Attempt.ofOption (store.reader? t affinity)) := by
  unfold Row.resolve
  rw [hinfo]
  dsimp only
  cases store.decls.entity? t.name <;> rfl

/-- A row of reported columns that is a record was resolved as one. -/
theorem record_of_row {store : Store} {t : TypeExpr} {query : Sql.Query} {row : Row}
    {record : RecordRow} {info : Sql.ResultInfo}
    (h : Yields (Row.resolve store t query).run (some row) 0) (hrecord : row.record? = some record)
    (hinfo : Row.usableInfo query = some info) :
    store.decls.isRecordType t = true ∧ ∃ shape,
      Yields (Attempt.ofExcept (store.decls.resolveShape t)).run (some shape) 0 ∧
        Yields (RecordRow.resolve store shape (some info)).run (some record) 0 := by
  rw [resolve_row_checked hinfo] at h
  by_cases ht : store.decls.isRecordType t = true
  · rw [if_pos ht] at h
    obtain ⟨shape, hshape, h⟩ := yields_of_attempt_bind (steady_ofExcept _) (fun _ =>
      steady_attempt_bind (steady_recordRow ..) fun _ => steady_attempt_pure _) h
    obtain ⟨found, hfound, h⟩ := yields_of_attempt_bind (steady_recordRow ..)
      (fun _ => steady_attempt_pure _) h
    obtain rfl := Option.some.inj (h.unique (yields_pure (some _))).1
    obtain rfl := Option.some.inj hrecord
    exact ⟨ht, shape, hshape, hfound⟩
  · rw [if_neg ht] at h
    obtain ⟨reader, -, h⟩ := yields_of_attempt_bind (steady_ofOption _)
      (fun _ => steady_attempt_pure _) h
    obtain rfl := Option.some.inj (h.unique (yields_pure (some _))).1
    exact absurd hrecord nofun

theorem yields_row_narrowed {store : Store} {t : TypeExpr} {query query' : Sql.Query} {row : Row}
    {record : RecordRow} {info info' : Sql.ResultInfo}
    (h : Yields (Row.resolve store t query).run (some row) 0) (hrecord : row.record? = some record)
    (hinfo : Row.usableInfo query = some info) (hinfo' : Row.usableInfo query' = some info')
    (hcolumns : info'.columnNames = record.mapping.usedColumns) :
    Yields (Row.resolve store t query').run (some (.record record.narrowed)) 0 := by
  obtain ⟨ht, shape, hshape, hfound⟩ := record_of_row h hrecord hinfo
  rw [resolve_row_checked hinfo', if_pos ht]
  refine yields_attempt_bind hshape ?_
  exact yields_attempt_bind (yields_recordRow_narrowed hfound hcolumns) (yields_pure _)

/-- A result is a form together with a row. -/
theorem row_of_result {store : Store} {t : TypeExpr} {query : Sql.Query} {result : Result}
    (h : Yields (Result.resolve store t query).run (some result) 0) :
    ∃ rowType, Yields (Attempt.ofOption (Result.formOf? store.decls t)).run
        (some (result.form, rowType)) 0 ∧
      Yields (Row.resolve store rowType query).run (some result.row) 0 := by
  unfold Result.resolve at h
  obtain ⟨⟨form, rowType⟩, hform, h⟩ := yields_of_attempt_bind (steady_ofOption _) (fun _ =>
    steady_attempt_bind (steady_row ..) fun _ => steady_attempt_pure _) h
  obtain ⟨row, hrow, h⟩ := yields_of_attempt_bind (steady_row ..) (fun _ => steady_attempt_pure _) h
  obtain rfl := Option.some.inj (h.unique (yields_pure (some _))).1
  exact ⟨rowType, hform, hrow⟩

/-- The result whose rows are read from the columns they use alone. -/
def Result.withRecord (r : Result) (record : RecordRow) : Result :=
  { r with row := .record record.narrowed }

/-- A result that is read without errors is read without errors from the columns it uses. -/
theorem yields_result_narrowed {store : Store} {t : TypeExpr} {query query' : Sql.Query}
    {result : Result} {record : RecordRow} {info info' : Sql.ResultInfo}
    (h : Yields (Result.resolve store t query).run (some result) 0)
    (hrecord : result.row.record? = some record) (hinfo : Row.usableInfo query = some info)
    (hinfo' : Row.usableInfo query' = some info')
    (hcolumns : info'.columnNames = record.mapping.usedColumns) :
    Yields (Result.resolve store t query').run (some (result.withRecord record)) 0 := by
  obtain ⟨rowType, hform, hrow⟩ := row_of_result h
  unfold Result.resolve
  refine yields_attempt_bind hform ?_
  exact yields_attempt_bind (yields_row_narrowed hrow hrecord hinfo hinfo' hcolumns)
    (yields_pure _)

theorem mapping_of_recordRow {store : Store} {shape : Shape} {info : Sql.ResultInfo}
    {row : RecordRow} (h : Yields (RecordRow.resolve store shape (some info)).run (some row) 0) :
    row.mapping = Mapping.ofColumns row.fields info.columnNames := by
  rw [resolve_recordRow_checked] at h
  obtain ⟨fields, -, h⟩ := yields_of_attempt_bind (steady_bindFields store shape)
    (fun _ => steady_attempt_bind (steady_attempt_lift (steady_checkMapping ..)) fun _ =>
      steady_finishRecord ..) h
  obtain ⟨readable, -, h⟩ := yields_of_attempt_bind
    (steady_attempt_lift (steady_checkMapping ..)) (fun _ => steady_finishRecord ..) h
  obtain ⟨-, -, rfl, hmapping, -⟩ := yields_finishRecord h
  exact hmapping

/-- The columns that a result reads are among the reported ones. -/
theorem usedColumns_of_result {store : Store} {t : TypeExpr} {query : Sql.Query} {result : Result}
    {record : RecordRow} {info : Sql.ResultInfo}
    (h : Yields (Result.resolve store t query).run (some result) 0)
    (hrecord : result.row.record? = some record) (hinfo : Row.usableInfo query = some info)
    {c : String} (hc : c ∈ record.mapping.usedColumns) : c ∈ info.columnNames := by
  obtain ⟨rowType, -, hrow⟩ := row_of_result h
  obtain ⟨-, shape, -, hfound⟩ := record_of_row hrow hrecord hinfo
  rw [mapping_of_recordRow hfound] at hc
  exact ((Mapping.mem_usedColumns _ _).1 hc).1

end DataAccess.Rows
