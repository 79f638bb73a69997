import DataAccess.Proofs.Rows.ColumnPartition
import DataAccess.Rows.Pruning

/-!
Rows that are resolved again once their query selects the columns that they use. Everything is found
again, no column is left over, and there is nothing to select a second time.
-/

set_option autoImplicit false

namespace DataAccess.Rows

open Schema
open DataAccess.Convert

/-- The reported columns with one of the names. -/
def restrictedTo (names : List String) (info : Sql.ResultInfo) : Sql.ResultInfo :=
  { info with columns := info.columns.filter fun c => names.contains c.name }

theorem columnNames_restrictedTo (names : List String) (info : Sql.ResultInfo) :
    (restrictedTo names info).columnNames = info.columnNames.filter names.contains := by
  rw [Sql.ResultInfo.columnNames, Sql.ResultInfo.columnNames, List.filter_map]
  rfl

theorem Mapping.columnNames_usedColumns (fields : List BoundField) {info : Sql.ResultInfo}
    (hnodup : info.columnNames.Nodup) :
    (restrictedTo (Mapping.ofColumns fields info.columnNames).usedColumns info).columnNames =
      (Mapping.ofColumns fields info.columnNames).usedColumns := by
  rw [columnNames_restrictedTo]
  have hused : (Mapping.ofColumns fields info.columnNames).usedColumns =
      info.columnNames.filter fun c => fields.any (·.column = c) := by
    rw [ofColumns, eraseDups_of_nodup hnodup]
  conv_rhs => rw [hused]
  refine List.filter_congr fun c hc => ?_
  rw [Bool.eq_iff_iff, List.contains_iff_mem, mem_usedColumns]
  exact and_iff_right hc

theorem repeated_eq_nil {seen names : List String} (hnodup : names.Nodup)
    (hseen : ∀ n ∈ names, n ∉ seen) : Sql.ResultInfo.repeated seen names = [] := by
  induction names generalizing seen with
  | nil => rfl
  | cons n names ih =>
    obtain ⟨hn, hnames⟩ := List.nodup_cons.1 hnodup
    rw [Sql.ResultInfo.repeated, if_neg (by simpa using hseen n List.mem_cons_self)]
    refine ih hnames fun m hm => ?_
    rw [List.mem_cons, not_or]
    exact ⟨fun h => hn (h ▸ hm), hseen m (List.mem_cons_of_mem _ hm)⟩

theorem hasDuplicateColumns_eq_false {info : Sql.ResultInfo} (hnodup : info.columnNames.Nodup) :
    info.hasDuplicateColumns = false := by
  rw [Sql.ResultInfo.hasDuplicateColumns, Sql.ResultInfo.duplicateColumns,
    repeated_eq_nil hnodup (by simp)]
  rfl

section Finds

variable {α β : Type} {x : Attempt α} {f : α → Attempt β} {a : α} {o : Option β}
  {found found' : Option String → Log}

theorem finds_attempt_bind (hx : Finds x.run (some a) found) (hf : Finds (f a).run o found') :
    Finds (x >>= f).run o fun anchor => found anchor ++ found' anchor := by
  rw [run_attempt_bind]
  exact hx.bind hf

theorem finds_lift_bind {act : Report α} (hact : Finds act a found) (hf : Finds (f a).run o found') :
    Finds (liftM act >>= f : Attempt β).run o fun anchor => found anchor ++ found' anchor :=
  hact.bind hf

/-- A warning under a condition. -/
def warningIf (c : Bool) (kind : Warning) (p : Problem) : Log :=
  if c then [⟨.warning kind, p, none⟩] else []

theorem finds_warned {c : Bool} {kind : Warning} {p : Problem} {rest : Report α} {log : Log}
    (h : Finds rest a (Log.under · log)) :
    Finds (do
      if c then Report.warn kind p
      rest) a (Log.under · (warningIf c kind p ++ log)) := by
  cases c with
  | false => exact h
  | true => exact (finds_warn kind p).bind h

end Finds

/-- What is said about the columns of a record that can be read. -/
def mappingLog (record : String) (fields : List BoundField) (info : Sql.ResultInfo)
    (mapping : Mapping) : Log :=
  warningIf info.hasDuplicateColumns .duplicateResultColumns
    (.duplicateColumns info.duplicateColumns.toList) ++
  warningIf (!mapping.isExact) .cursorMismatch (.cursorMismatch record mapping.unusedColumns
    info.columnNames mapping.unusedFields (fields.map BoundField.display))

theorem finds_checkMapping {record : String} {fields : List BoundField} {info : Sql.ResultInfo}
    {mapping : Mapping} (h : readableFrom fields mapping = true) :
    Finds (RecordRow.checkMapping record fields info mapping) true
      (Log.under · (mappingLog record fields info mapping)) := by
  simp only [readableFrom, Bool.and_eq_true, Bool.not_eq_true'] at h
  rw [checkMapping_eq]
  refine finds_warned ?_
  unfold checkFields
  simp only [h.1, h.2]
  rw [← List.append_nil (warningIf (!mapping.isExact) _ _)]
  exact finds_warned (finds_pure true)

section Narrowed

variable {store : Store} {shape : Shape} {info info' : Sql.ResultInfo} {row : RecordRow}

/-- A record that can be read is resolved with nothing but warnings about its columns. -/
theorem finds_recordRow (h : (RecordRow.resolve store shape (some info)).Gives row) :
    Finds (RecordRow.resolve store shape (some info)).run (some row)
      (Log.under · (mappingLog shape.typeName row.fields info row.mapping)) := by
  obtain ⟨rfl, hfields, hrelations, hmapping, hreadable, hchecked⟩ := gives_recordRow_iff.1 h
  have hrelated : ∀ declared,
      (resolveDeclared store row.shape declared).Accounts fun _ => true :=
    fun declared => accounts_relatedRows countsErrors_true declared.1 declared.2
  have hfinish : Finds (finishRecord store row.shape row.fields row.mapping true true).run
      (some row) fun _ => [] := by
    have hall := (Attempt.accounts_all hrelated _).finds
      ((Attempt.gives_all_iff fun declared => (hrelated declared).steady).2 hrelations)
    have hrow : (⟨row.shape, row.fields, row.relations, row.mapping, true⟩ : RecordRow) = row := by
      rw [← hchecked]
    rw [finishRecord_readable]
    exact finds_attempt_bind hall (hrow ▸ finds_pure (some _))
  have hcheck : Finds (RecordRow.checkMapping row.shape.typeName row.fields info row.mapping) true
      (Log.under · (mappingLog row.shape.typeName row.fields info row.mapping)) :=
    finds_checkMapping hreadable
  have hwhole : Finds (RecordRow.resolve store row.shape (some info)).run (some row) fun anchor =>
      [] ++ (Log.under anchor (mappingLog row.shape.typeName row.fields info row.mapping) ++ []) := by
    rw [resolve_recordRow_checked]
    refine finds_attempt_bind ((accounts_bindFields countsErrors_true).finds hfields) ?_
    rw [← hmapping]
    exact finds_lift_bind hcheck hfinish
  simpa only [List.nil_append, List.append_nil] using hwhole

theorem RecordRow.ReadsFrom.narrowed {columns : List String} (h : row.ReadsFrom store shape columns) :
    row.narrowed.ReadsFrom store shape row.mapping.usedColumns where
  ofShape := h.ofShape
  fields := h.fields
  relations := h.relations
  mapping := by
    have hmapping := Mapping.ofColumns_usedColumns row.fields columns
    rw [← h.mapping] at hmapping
    exact hmapping.symm
  readable := (readableFrom_congr rfl).trans h.readable
  isChecked := h.isChecked

/-- Nothing is kept of the columns of a row that uses all of them. -/
theorem applyAll_of_allUsed (rewriters : List Rewriter) (query : Sql.Query)
    (h : row.mapping.unusedColumns = []) :
    Rewriter.applyAll rewriters query (.record row) = query := by
  have hkept : keptColumns? query (.record row) = none := by
    cases hinfo : query.resultInfo with
    | none => simp [keptColumns?, hinfo, Row.record?]
    | some info => simp [keptColumns?, hinfo, Row.record?, h]
  induction rewriters with
  | nil => rfl
  | cons r rest ih =>
    have hstep : r.apply query (.record row) = query := by
      cases r
      rw [Rewriter.apply, pruneWith, hkept]
    rw [Rewriter.applyAll, List.foldl_cons, hstep]
    exact ih

/-- A record whose query is narrowed to the columns that it uses, each of them reported once, is
resolved again with the same fields, readers and relations and no column left over. The one thing that
may be said about it is which fields still have no column, and its query is not narrowed again. -/
theorem resolve_recordRow_narrowed (h : (RecordRow.resolve store shape (some info)).Gives row)
    (hnodup : info.columnNames.Nodup) :
    let used := row.mapping.usedColumns
    let again : RecordRow := { row with mapping := ⟨used, [], row.mapping.unusedFields⟩ }
    let log := warningIf (!row.mapping.unusedFields.isEmpty) .cursorMismatch
      (.cursorMismatch shape.typeName [] used row.mapping.unusedFields
        (row.fields.map BoundField.display))
    (restrictedTo used info).columnNames = used ∧
    (∀ info', info'.columnNames = used →
      Finds (RecordRow.resolve store shape (some info')).run (some again) (Log.under · log) ∧
      ∀ t query, store.decls.isRecordType t = true → store.decls.resolveShape t = .ok shape →
        Row.usableInfo query = some info' →
        Finds (Row.resolve store t query).run (some (.record again)) (Log.under · log)) ∧
    ∀ rewriters query, Rewriter.applyAll rewriters query (.record again) = query := by
  intro used again log
  have hread := gives_recordRow_iff.1 h
  refine ⟨?_, fun info' hcolumns => ?_, fun rewriters query => applyAll_of_allUsed rewriters query rfl⟩
  · have hsame := Mapping.columnNames_usedColumns row.fields hnodup
    rwa [← hread.mapping] at hsame
  · have hused : used.Nodup := by
      rw [show used = _ from congrArg Mapping.usedColumns hread.mapping]
      exact Mapping.nodup_usedColumns ..
    have hlog : mappingLog shape.typeName again.fields info' again.mapping = log := by
      rw [mappingLog, hasDuplicateColumns_eq_false (hcolumns ▸ hused), hcolumns]
      rfl
    have hagain : (RecordRow.resolve store shape (some info')).Gives again :=
      gives_recordRow_iff.2 (hcolumns ▸ hread.narrowed)
    have hfinds := hlog ▸ finds_recordRow hagain
    refine ⟨hfinds, fun t query ht hshape hinfo => ?_⟩
    rw [resolve_row_checked hinfo, if_pos ht, hshape]
    have hwhole : Finds (do
        let shape ← Attempt.ofExcept (.ok shape)
        return Row.record (← RecordRow.resolve store shape (some info'))).run
        (some (.record again)) fun anchor => [] ++ (Log.under anchor log ++ []) :=
      finds_attempt_bind (finds_pure (some shape)) (finds_attempt_bind hfinds (finds_pure _))
    simpa only [List.nil_append, List.append_nil] using hwhole

end Narrowed

/-- A contact is read again from a name and a phone, and nothing is said about it. -/
theorem resolve_contact_narrowed :
    let info : Sql.ResultInfo := { columns := [⟨"age", none⟩, ⟨"name", none⟩, ⟨"phone", none⟩] }
    let info' : Sql.ResultInfo := { columns := [⟨"name", none⟩, ⟨"phone", none⟩] }
    info.columnNames.Nodup ∧ ∃ row again,
      (RecordRow.resolve contactStore contactShape (some info)).Gives row ∧
      row.mapping = ⟨["name", "phone"], ["age"], []⟩ ∧
      again = { row with mapping := ⟨["name", "phone"], [], []⟩ } ∧
      Finds (RecordRow.resolve contactStore contactShape (some info')).run (some again)
        fun _ => [] := by
  intro info info'
  have hresolved : ((RecordRow.resolve contactStore contactShape (some info)).run.run {}).1.map
      RecordRow.mapping = some ⟨["name", "phone"], ["age"], []⟩ := by
    decide +kernel
  obtain ⟨row, hrow, hmapping⟩ := Option.map_eq_some_iff.1 hresolved
  have hnodup : info.columnNames.Nodup := by decide +kernel
  obtain ⟨-, hagain, -⟩ := resolve_recordRow_narrowed ⟨{}, hrow⟩ hnodup
  have hfinds := (hagain info' (by rw [hmapping]; rfl)).1
  rw [hmapping] at hfinds
  exact ⟨hnodup, row, _, ⟨{}, hrow⟩, hmapping, rfl, hfinds⟩

end DataAccess.Rows
