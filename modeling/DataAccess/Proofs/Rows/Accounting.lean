import DataAccess.Proofs.Diagnostics.Accounting
import DataAccess.Proofs.Rows.ResolvedRows

/-!
Rows that cannot be read are reported. A field without a reader, a column that is missing and a
relation that cannot be resolved each leave an error, and apart from warnings about the columns nothing
else is reported.
-/

set_option autoImplicit false

namespace DataAccess.Rows

open Schema
open DataAccess.Convert

variable {store : Store} {shape : Shape} {counts : Diagnostic → Bool}

variable (store shape) in
/-- The reader for one field of a shape. -/
def bindField (place : FieldPath) : Attempt BoundField :=
  match store.reader? place.field.type place.field.storage? with
  | some reader => pure ⟨place, reader⟩
  | none =>
    Attempt.reject (.cannotReadField shape.typeName place.display place.field.type.display)

theorem bindFields_eq :
    bindFields store shape = Attempt.all (bindField store shape) shape.allFields := by
  unfold bindFields Attempt.all Attempt.each
  rw [← Attempt.mapM_lift]
  refine congrArg (shape.allFields.mapM · >>= fun bound => Attempt.ofOption (bound.mapM id)) ?_
  funext place
  unfold bindField
  cases store.reader? place.field.type place.field.storage? <;> rfl

theorem accounts_bindField (hcounts : CountsErrors counts) (place : FieldPath) :
    (bindField store shape place).Accounts counts := by
  unfold bindField
  split
  · exact Attempt.accounts_pure _
  · exact Attempt.accounts_reject hcounts _

theorem accounts_bindFields (hcounts : CountsErrors counts) :
    (bindFields store shape).Accounts counts :=
  bindFields_eq ▸ Attempt.accounts_all (accounts_bindField hcounts) _

theorem accounts_entityRow (hcounts : CountsErrors counts) (entity : Entity) :
    (EntityRow.resolve store entity).Accounts counts := by
  refine (Attempt.accounts_ofExcept hcounts _).bind fun shape => ?_
  exact (accounts_bindFields hcounts).bind fun _ => Attempt.accounts_pure _

theorem accounts_resolveElement (hcounts : CountsErrors counts) (relation : Relation)
    (entity : Entity) (entityShape : Shape) :
    (RelatedRows.resolveElement store relation entity entityShape).Accounts counts := by
  unfold RelatedRows.resolveElement
  split
  · split
    · split
      · exact Attempt.accounts_pure _
      · exact Attempt.accounts_reject hcounts _
    · exact Attempt.accounts_reject hcounts _
  · split
    · exact (accounts_entityRow hcounts entity).bind fun _ => Attempt.accounts_pure _
    · exact Attempt.accounts_reject hcounts _

theorem accounts_relatedRows (hcounts : CountsErrors counts) (path : List String)
    (relation : Relation) : (RelatedRows.resolve store shape path relation).Accounts counts := by
  unfold RelatedRows.resolve
  split
  · split
    · refine .unless hcounts ((Attempt.accounts_ofExcept hcounts _).bind fun entityShape => ?_)
      refine .unless hcounts ?_
      dsimp only
      split
      · exact (accounts_resolveElement hcounts ..).bind fun _ => Attempt.accounts_pure _
      · exact Attempt.accounts_reject hcounts _
    · exact Attempt.accounts_reject hcounts _
  · exact Attempt.accounts_reject hcounts _

/-- The columns of a record cannot be read exactly when an error says so; warnings do not count. -/
theorem accounts_checkMapping (record : String) (fields : List BoundField) (info : Sql.ResultInfo)
    (mapping : Mapping) :
    Accounts Diagnostic.isError False (RecordRow.checkMapping record fields info mapping)
      (· = false) := by
  have hunreadable : ∀ p, Accounts Diagnostic.isError False
      (do Report.error p; return false : Report Bool) (· = false) :=
    fun p => accounts_error countsErrors_isError p rfl
  rw [checkMapping_eq]
  refine Accounts.warned (fun _ => rfl) ?_
  unfold checkFields
  split
  · exact hunreadable _
  · split
    · exact hunreadable _
    · exact Accounts.warned (fun _ => rfl) (accounts_pure (by simp))

variable (store shape) in
/-- The related rows of one of the relations of a shape. -/
def resolveDeclared (declared : List String × Relation) : Attempt RelatedRows :=
  RelatedRows.resolve store shape declared.1 declared.2

theorem relatedRows_eq : relatedRows store shape =
    liftM (Attempt.each (resolveDeclared store shape) shape.allRelations) :=
  Attempt.mapM_lift _ _

theorem accounts_finishRecord (fields : List BoundField) (mapping : Mapping)
    (isChecked readable : Bool) :
    Accounts Diagnostic.isError (readable = false)
      (finishRecord store shape fields mapping isChecked readable).run (· = none) := by
  have hrelated : ∀ declared, (resolveDeclared store shape declared).Accounts Diagnostic.isError :=
    fun declared => accounts_relatedRows countsErrors_isError declared.1 declared.2
  unfold finishRecord
  rw [relatedRows_eq]
  refine Attempt.accounts_lift_bind (Attempt.accounts_each hrelated _).after fun answers => ?_
  cases readable with
  | false => exact accounts_pure (by simp)
  | true => cases answers.mapM id <;> exact accounts_pure (by simp)

/-! The rows that are resolved. -/

theorem gives_bindField_iff {place : FieldPath} {f : BoundField} :
    (bindField store shape place).Gives f ↔
      f.place = place ∧ store.reader? place.field.type place.field.storage? = some f.reader := by
  unfold bindField
  cases store.reader? place.field.type place.field.storage? with
  | none => exact iff_of_false not_gives_reject nofun
  | some reader =>
    constructor
    · intro h
      rw [eq_of_gives_pure h]
      exact ⟨rfl, rfl⟩
    · rintro ⟨rfl, hreader⟩
      obtain rfl := Option.some.inj hreader
      exact ⟨{}, rfl⟩

theorem gives_bindFields_iff {fields : List BoundField} :
    (bindFields store shape).Gives fields ↔ List.Forall₂ (fun place f => f.place = place ∧
      store.reader? place.field.type place.field.storage? = some f.reader)
      shape.allFields fields := by
  have hsteady : ∀ place, Steady (bindField store shape place).run :=
    fun place => (accounts_bindField countsErrors_true place).steady
  rw [bindFields_eq, Attempt.gives_all_iff hsteady]
  simp only [gives_bindField_iff]

theorem finishRecord_readable (fields : List BoundField) (mapping : Mapping) (isChecked : Bool) :
    finishRecord store shape fields mapping isChecked true = (do
      let relations ← Attempt.all (resolveDeclared store shape) shape.allRelations
      return { shape, fields, relations, mapping, isChecked }) := by
  unfold finishRecord Attempt.all
  rw [relatedRows_eq, bind_assoc]
  refine congrArg (liftM (Attempt.each _ _) >>= ·) (funext fun answers => ?_)
  cases answers.mapM id <;> rfl

/-- What a row is when its record is read from known columns. -/
structure RecordRow.ReadsFrom (row : RecordRow) (store : Store) (shape : Shape)
    (columns : List String) : Prop where
  ofShape : row.shape = shape
  fields : (bindFields store shape).Gives row.fields
  relations : List.Forall₂ (fun declared r => (resolveDeclared store shape declared).Gives r)
    shape.allRelations row.relations
  mapping : row.mapping = Mapping.ofColumns row.fields columns
  readable : readableFrom row.fields row.mapping = true
  isChecked : row.isChecked = true

theorem gives_recordRow_iff {info : Sql.ResultInfo} {row : RecordRow} :
    (RecordRow.resolve store shape (some info)).Gives row ↔
      row.ReadsFrom store shape info.columnNames := by
  have hsteady : ∀ declared, Steady (resolveDeclared store shape declared).run :=
    fun declared => steady_relatedRows ..
  rw [resolve_recordRow_checked]
  constructor
  · intro h
    obtain ⟨fields, hfields, h⟩ := h.of_bind
    obtain ⟨readable, hreadable, h⟩ := h.of_bind
    obtain ⟨rfl, -⟩ := of_gives_finishRecord h
    rw [finishRecord_readable] at h
    obtain ⟨relations, hrelations, h⟩ := h.of_bind
    obtain rfl := eq_of_gives_pure h
    obtain ⟨l, hcheck⟩ := gives_of_lift hreadable
    rw [(yields_checkMapping ..).value] at hcheck
    exact ⟨rfl, hfields, (Attempt.gives_all_iff hsteady).1 hrelations, rfl, hcheck, rfl⟩
  · intro h
    have hrow : (⟨shape, row.fields, row.relations, Mapping.ofColumns row.fields info.columnNames,
        true⟩ : RecordRow) = row := by
      rw [← h.ofShape, ← h.mapping, ← h.isChecked]
    have hcheck := (yields_checkMapping shape.typeName row.fields info
      (Mapping.ofColumns row.fields info.columnNames)).map some
    rw [← h.mapping, h.readable, h.mapping] at hcheck
    refine .bind (steady_bindFields store shape) ?_ h.fields ?_
    · exact steady_attempt_bind (steady_attempt_lift (steady_checkMapping ..)) fun _ =>
        steady_finishRecord ..
    · refine .bind (steady_attempt_lift (steady_checkMapping ..)) (steady_finishRecord ..)
        hcheck.gives ?_
      rw [finishRecord_readable]
      refine .bind (Attempt.steady_all hsteady _) (steady_attempt_pure _)
        ((Attempt.gives_all_iff hsteady).2 h.relations) ⟨{}, ?_⟩
      exact congrArg some hrow

theorem accounts_recordRow (info : Option Sql.ResultInfo) :
    (RecordRow.resolve store shape info).Accounts Diagnostic.isError := by
  cases info with
  | none =>
    rw [resolve_recordRow_unchecked]
    refine (accounts_bindFields countsErrors_isError).bind fun fields => ?_
    have hfinish : Accounts Diagnostic.isError (true = false)
        (finishRecord store shape fields (Mapping.ofFields fields) false true).run (· = none) :=
      accounts_finishRecord ..
    rwa [Bool.true_eq_false] at hfinish
  | some info =>
    rw [resolve_recordRow_checked]
    refine (accounts_bindFields countsErrors_isError).bind fun fields => ?_
    exact Attempt.accounts_lift_bind (accounts_checkMapping ..) fun _ => accounts_finishRecord ..

/-- The row of a record type is resolved or reported. -/
theorem accounts_row {t : TypeExpr} (ht : store.decls.isRecordType t = true) (query : Sql.Query) :
    (Row.resolve store t query).Accounts Diagnostic.isError := by
  have hrecord : ∀ info, (do
      let shape ← Attempt.ofExcept (store.decls.resolveShape t)
      return Row.record (← RecordRow.resolve store shape info)).Accounts Diagnostic.isError :=
    fun info => (Attempt.accounts_ofExcept countsErrors_isError _).bind fun shape =>
      (accounts_recordRow info).bind fun _ => Attempt.accounts_pure _
  unfold Row.resolve
  dsimp only
  rw [if_pos ht]
  split
  · split
    · exact (accounts_entityRow countsErrors_isError _).bind fun _ => Attempt.accounts_pure _
    · exact hrecord _
  · exact hrecord _

/-- Nothing is said about the row of any other type. -/
theorem run_row_other {t : TypeExpr} (ht : store.decls.isRecordType t = false) (query : Sql.Query)
    (l : Logger) : ((Row.resolve store t query).run.run l).2 = l := by
  unfold Row.resolve
  dsimp only
  rw [if_neg (by simp [ht])]
  generalize store.reader? t _ = reader
  cases reader <;> rfl

end DataAccess.Rows
