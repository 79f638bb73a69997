import DataAccess.Proofs.Rows.Accounting
import DataAccess.Statement.EntityWrite

/-!
Entity parameters that cannot be written are reported, as rows are that cannot be read.
-/

set_option autoImplicit false

namespace DataAccess.Statement

open Rows Schema
open DataAccess.Convert

variable {store : Store} {entity : Entity} {shape : Shape} {counts : Diagnostic → Bool}

variable (store entity) in
/-- The binder for one field of an entity. -/
def bindColumn (place : FieldPath) : Attempt BoundColumn :=
  match store.binder? place.field.type place.field.storage? with
  | some binder => pure ⟨place, binder⟩
  | none => Attempt.reject (.cannotBindField entity.name place.display place.field.type.display)

theorem bindColumns_eq_each :
    EntityParam.bindColumns store entity shape =
      Attempt.each (bindColumn store entity) shape.allFields := by
  unfold EntityParam.bindColumns Attempt.each
  refine congrArg (shape.allFields.mapM ·) ?_
  funext place
  unfold bindColumn
  cases store.binder? place.field.type place.field.storage? <;> rfl

theorem accounts_bindColumn (hcounts : CountsErrors counts) (place : FieldPath) :
    (bindColumn store entity place).Accounts counts := by
  unfold bindColumn
  split
  · exact Attempt.accounts_pure _
  · exact Attempt.accounts_reject hcounts _

theorem accounts_bindColumns (hcounts : CountsErrors counts) :
    Accounts counts False (EntityParam.bindColumns store entity shape) (·.mapM id = none) :=
  bindColumns_eq_each ▸ Attempt.accounts_each (accounts_bindColumn hcounts) _

theorem accounts_checkKey (hcounts : CountsErrors counts) :
    Accounts counts False (EntityParam.checkKey entity shape) (· = false) := by
  let missing := entity.primaryKey.filter fun key => (shape.findByColumn? key).isNone
  have hmissing : Accounts counts False
      (missing.forM fun key => Report.error (.primaryKeyColumnMissing entity.name key))
      fun _ => False ∨ missing ≠ [] := accounts_forM_error hcounts _ missing
  exact hmissing.bind fun _ => accounts_pure (by simp [missing])

theorem accounts_entityParam (hcounts : CountsErrors counts) (p : Param) :
    (EntityParam.resolve store p).Accounts counts := by
  unfold EntityParam.resolve
  extract_lets isCollection element
  split
  · refine (Attempt.accounts_ofExcept hcounts _).bind fun shape => ?_
    refine Attempt.accounts_lift_bind (accounts_bindColumns hcounts) fun columns => ?_
    refine Attempt.accounts_lift_bind (accounts_checkKey hcounts).after fun checked => ?_
    cases checked with
    | false => cases columns.mapM id <;> exact accounts_pure (by simp)
    | true => cases columns.mapM id <;> exact accounts_pure (by simp)
  · exact Attempt.accounts_reject hcounts _

/-- The row of a record type is resolved exactly when no error is reported, and nothing is reported
about the row of another type. An entity parameter is resolved exactly when no error is reported. -/
theorem resolve_none_iff_hasErrors (store : Store) (l : Logger) :
    (∀ t query, store.decls.isRecordType t = true →
      ∃ log, ((Row.resolve store t query).run.run l).2 = l.replay log ∧
        (((Row.resolve store t query).run.run l).1 = none ↔ log.hasErrors = true)) ∧
    (∀ t query, store.decls.isRecordType t = false →
      ((Row.resolve store t query).run.run l).2 = l) ∧
    ∀ p, ∃ log, ((EntityParam.resolve store p).run.run l).2 = l.replay log ∧
      (((EntityParam.resolve store p).run.run l).1 = none ↔ log.hasErrors = true) :=
  ⟨fun _ query ht => (accounts_row ht query).run l, fun _ query ht => run_row_other ht query l,
    fun p => (accounts_entityParam countsErrors_isError p).run l⟩

/-- A trip has a route, which no column can hold. -/
def tripStore : Store where
  decls := {
    entities := [{ record := { name := "Trip", fields := [
      { name := "id", type := .simple "i64" }, { name := "route", type := .simple "Route" }] } }] }
  maxHops := 2
  custom := []

/-- A trip can be neither read nor written, which is reported; a route alone cannot be read either,
but that is for others to report. -/
theorem resolve_trip :
    let trips : Sql.Query := { original := "SELECT * FROM Trip" }
    let trip : Param := { name := "trip", type := .simple "Trip" }
    (∃ log, ((Row.resolve tripStore (.simple "Trip") trips).run.run {}).2 = Logger.replay {} log ∧
      log.hasErrors = true) ∧
    ((Row.resolve tripStore (.simple "Route") trips).run.run {}).1.isNone = true ∧
    ((Row.resolve tripStore (.simple "Route") trips).run.run {}).2 = {} ∧
    ∃ log, ((EntityParam.resolve tripStore trip).run.run {}).2 = Logger.replay {} log ∧
      log.hasErrors = true := by
  intro trips trip
  obtain ⟨hrecords, hothers, hparams⟩ := resolve_none_iff_hasErrors tripStore {}
  obtain ⟨rowLog, hrow, hrowErrors⟩ := hrecords (.simple "Trip") trips (by decide +kernel)
  obtain ⟨paramLog, hparam, hparamErrors⟩ := hparams trip
  refine ⟨⟨rowLog, hrow, hrowErrors.1 ?_⟩, by decide +kernel,
    hothers (.simple "Route") trips (by decide +kernel), paramLog, hparam, hparamErrors.1 ?_⟩
  · exact Option.isNone_iff_eq_none.1 (by decide +kernel)
  · exact Option.isNone_iff_eq_none.1 (by decide +kernel)

end DataAccess.Statement
