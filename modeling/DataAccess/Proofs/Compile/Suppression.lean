import DataAccess.Proofs.Compile.Locality

/-!
What suppressing warnings does to a round: it takes suppressed warnings out of what is reported, each
where it was found, and changes nothing else.
-/

set_option autoImplicit false

namespace DataAccess

open Schema

/-! The same declarations and settings without any suppression. -/

def Schema.Method.unsuppressed (m : Method) : Method := { m with suppressWarnings := [] }

def Schema.Dao.unsuppressed (d : Dao) : Dao :=
  { d with suppressWarnings := [], methods := d.methods.map Method.unsuppressed }

def Schema.Declarations.unsuppressed (d : Declarations) : Declarations :=
  { d with daos := d.daos.map Dao.unsuppressed }

def Config.unsuppressed (c : Config) : Config := { c with suppressedWarnings := [] }

namespace Compile

/-- What a round goes through: the database, then each data access object, and behind an object its
methods. -/
inductive Stage where
  | database
  | dao (dao : Dao)
  | method (dao : Dao) (m : Schema.Method)

namespace Stage

def all (daos : List Dao) : List Stage :=
  database :: daos.flatMap fun d => dao d :: d.methods.map (method d)

/-- What is suppressed in a stage, when a configuration suppresses `kinds`. -/
def suppressed (kinds : List Warning) : Stage → List Warning
  | database => kinds
  | dao d => kinds ++ suppressedBy d.suppressWarnings
  | method d m => kinds ++ suppressedBy d.suppressWarnings ++ suppressedBy m.suppressWarnings

def unsuppressed : Stage → Stage
  | database => database
  | dao d => dao d.unsuppressed
  | method d m => method d.unsuppressed m.unsuppressed

theorem all_unsuppressed (daos : List Dao) :
    all (daos.map Dao.unsuppressed) = (all daos).map unsuppressed := by
  simp only [all, List.flatMap_map, List.map_cons, List.map_flatMap, List.map_map]
  congr 1
  refine List.flatMap_congr fun d _ => ?_
  simp only [Dao.unsuppressed, List.map_map]
  rfl

theorem suppressed_unsuppressed (stage : Stage) : stage.unsuppressed.suppressed [] = [] := by
  cases stage <;> rfl

end Stage

/-- What is found in a stage with nothing suppressed. -/
def RoundSetting.findings (s : RoundSetting) (databaseLog : Log) : Stage → Log
  | .database => databaseLog
  | .dao d => (Report.anchored (some d.name) (convertersInScope s.decls d.converters)).findings
  | .method d m => (s.resolving d.unsuppressed m.unsuppressed).findings

section Stages

variable (s : RoundSetting) (d : Dao)

/-- What is suppressed for a method is left out of what is found against it. -/
theorem finds_resolving_unsuppressed (m : Schema.Method) :
    Finds (s.resolving d m) (s.resolving d.unsuppressed m.unsuppressed).answer fun _ =>
      (s.resolving d.unsuppressed m.unsuppressed).findings.without
        (suppressedBy m.suppressWarnings) := by
  obtain ⟨o, log, h, -⟩ := ResolvedMethod.exact_resolveKind (s.settingOf d) d.name m
  have hm := (h.suppressing (suppressedBy m.suppressWarnings)).anchored
    (some (d.name ++ "::" ++ m.name))
  have hplain : Finds (s.resolving d.unsuppressed m.unsuppressed) o fun _ =>
      (log.under (some (d.name ++ "::" ++ m.name))).without [] :=
    (h.suppressing []).anchored (some (d.name ++ "::" ++ m.name))
  rw [hplain.answer_eq, hplain.findings_eq, Log.without_nil]
  exact hm

theorem answer_compileDao_unsuppressed :
    (compileDao s d.unsuppressed).answer = (compileDao s d).answer := by
  rw [(finds_compileDao s _).answer_eq, (finds_compileDao s d).answer_eq]
  simp only [(finds_resolving_unsuppressed s d _).answer_eq]
  simp only [Dao.unsuppressed, List.filterMap_map]
  rfl

theorem findings_compileDao (databaseLog : Log) (kinds : List Warning) :
    (compileDao s d).findings.without kinds =
      (Stage.dao d :: d.methods.map (Stage.method d)).flatMap fun stage =>
        (s.findings databaseLog stage).without (stage.suppressed kinds) := by
  rw [(finds_compileDao s d).findings_eq]
  simp only [(finds_resolving_unsuppressed s d _).findings_eq, Log.without_append,
    Log.without_flatMap, Log.without_without, List.flatMap_cons, List.flatMap_map, Stage.suppressed,
    List.append_assoc]
  rfl

theorem findings_unsuppressed (databaseLog : Log) (stage : Stage) :
    s.findings databaseLog stage.unsuppressed = s.findings databaseLog stage := by
  cases stage <;> rfl

/-- What the configuration suppresses is no matter of the objects. -/
theorem compileDao_unsuppressed_config :
    compileDao { s with config := s.config.unsuppressed } = compileDao s := rfl

theorem findings_unsuppressed_config :
    RoundSetting.findings { s with config := s.config.unsuppressed } = s.findings := by
  funext databaseLog stage
  cases stage <;> rfl

end Stages

section Round

variable {openSchema : Declarations → Except String Verifier}
  (hschema : ∀ decls daos, openSchema { decls with daos } = openSchema decls)
  (decls : Declarations) (config : Config) (registry : Registry)

include hschema

/-- A round reports what its stages find, without what is suppressed in each. -/
theorem runRoundWith_stages (daos : List Dao) {kinds : List Warning}
    (hkinds : config.suppressed = .ok kinds) :
    runRoundWith openSchema (decls.withDaos daos) config registry = .ok
      ⟨daos.map fun d => (compileDao (roundSetting openSchema decls config registry) d).answer,
        (Stage.all daos).flatMap fun stage =>
          ((roundSetting openSchema decls config registry).findings
            (databaseFindings openSchema decls config registry) stage).without
              (stage.suppressed kinds)⟩ := by
  rw [runRoundWith_withDaos daos decls config registry hschema, hkinds]
  simp only [findings_compileDao _ _ (databaseFindings openSchema decls config registry)]
  rw [Stage.all, List.flatMap_cons, List.flatMap_assoc]
  rfl

/-- A round without suppressions reports what its stages find. -/
theorem runRoundWith_unsuppressed :
    runRoundWith openSchema decls.unsuppressed config.unsuppressed registry = .ok
      ⟨decls.daos.map fun d => (compileDao (roundSetting openSchema decls config registry) d).answer,
        (Stage.all decls.daos).flatMap ((roundSetting openSchema decls config registry).findings
          (databaseFindings openSchema decls config registry))⟩ := by
  have hkinds : config.unsuppressed.suppressed = .ok [] := rfl
  have hround := runRoundWith_stages hschema decls config.unsuppressed registry
    (decls.daos.map Dao.unsuppressed) hkinds
  have hsetting : roundSetting openSchema decls config.unsuppressed registry =
      { roundSetting openSchema decls config registry with
        config := (roundSetting openSchema decls config registry).config.unsuppressed } := rfl
  rw [hsetting, compileDao_unsuppressed_config, findings_unsuppressed_config,
    Stage.all_unsuppressed] at hround
  simp only [List.map_map, Function.comp_def, answer_compileDao_unsuppressed, List.flatMap_map,
    findings_unsuppressed, Stage.suppressed_unsuppressed, Log.without_nil] at hround
  exact hround

/-- Suppression takes suppressed warnings out of the stage in which they were found, and changes
neither the classes nor the errors. -/
theorem suppression_filters {kinds : List Warning} (hkinds : config.suppressed = .ok kinds) :
    let found := (roundSetting openSchema decls config registry).findings
      (databaseFindings openSchema decls config registry)
    ∃ daos plain filtered,
      runRoundWith openSchema decls.unsuppressed config.unsuppressed registry = .ok ⟨daos, plain⟩ ∧
      runRoundWith openSchema decls config registry = .ok ⟨daos, filtered⟩ ∧
      plain = (Stage.all decls.daos).flatMap found ∧
      filtered = (Stage.all decls.daos).flatMap (fun stage =>
        (found stage).without (stage.suppressed kinds)) ∧
      filtered.errors = plain.errors := by
  refine ⟨_, _, _, runRoundWith_unsuppressed hschema decls config registry,
    runRoundWith_stages hschema decls config registry decls.daos hkinds, rfl, rfl, ?_⟩
  simp only [Log.errors_flatMap, Log.errors_without]

end Round

/-- Suppressions at an object and at one of its methods. -/
def reportDao : Dao where
  name := "ReportDao"
  suppressWarnings := ["DAOC_CURSOR_MISMATCH"]
  methods := [{ name := "totals", suppressWarnings := ["DAOC_ALL"] }, { name := "days" }]

theorem suppression_filters_reportDao :
    let decls : Declarations := { daos := [reportDao] }
    let config : Config := { suppressedWarnings := ["daoc_duplicate_result_columns"] }
    let found := (roundSetting Reference.openSchema decls config .builtIn).findings
      (databaseFindings Reference.openSchema decls config .builtIn)
    ∃ daos plain filtered,
      runRoundWith Reference.openSchema decls.unsuppressed config.unsuppressed .builtIn =
        .ok ⟨daos, plain⟩ ∧
      runRoundWith Reference.openSchema decls config .builtIn = .ok ⟨daos, filtered⟩ ∧
      plain = (Stage.all [reportDao]).flatMap found ∧
      filtered = (Stage.all [reportDao]).flatMap (fun stage =>
        (found stage).without (stage.suppressed [.duplicateResultColumns])) ∧
      filtered.errors = plain.errors :=
  suppression_filters (fun decls daos => openSchema_withDaos daos decls) { daos := [reportDao] }
    { suppressedWarnings := ["daoc_duplicate_result_columns"] } .builtIn (by decide)

end Compile

end DataAccess
