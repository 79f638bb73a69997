import DataAccess.Compile.Converters
import DataAccess.Compile.EntityMethod
import DataAccess.Compile.GeneratedDao
import DataAccess.Compile.QueryMethod
import DataAccess.Compile.TransactionMethod

/-!
A round compiles all data access objects of a project: it resolves their methods, reports what is
wrong with them, and writes the classes that hold the rest.
-/

set_option autoImplicit false

namespace DataAccess.Compile

open Code DataAccess.Convert Rows Schema

/-- A method of which nothing wrong was reported. -/
inductive ResolvedMethod where
  | query (method : QueryMethod)
  | entities (method : EntityMethod)
  | transaction (method : TransactionMethod)

namespace ResolvedMethod

def name : ResolvedMethod → String
  | query m => m.name
  | entities m => m.name
  | transaction m => m.name

def write : ResolvedMethod → StateM ClassMembers Code.Method
  | query m => m.write
  | entities m => m.write
  | transaction m => m.write

def resolveKind (s : Setting) (dao : String) (m : Schema.Method) :
    Report (Option ResolvedMethod) := do
  match statementKind? m.kind with
  | some kind => return (← EntityMethod.resolve s m kind).map entities
  | none =>
    if m.kind = .transaction then return (← TransactionMethod.resolve s dao m).map transaction
    else return (← QueryMethod.resolve s m).map query

/-- Resolves a method under its own anchor and suppressions. -/
def resolve (s : Setting) (dao : String) (m : Schema.Method) : Report (Option ResolvedMethod) :=
  Report.anchored (some (dao ++ "::" ++ m.name))
    (Report.suppressing (suppressedBy m.suppressWarnings) (resolveKind s dao m))

end ResolvedMethod

/-- What all data access objects of a round share. -/
structure RoundSetting where
  decls : Declarations
  config : Config
  providers : Delivery.Providers
  rewriters : List Rewriter
  verifier : Option Verifier
  databaseConverters : List CustomConverter

namespace RoundSetting

/-- The setting of one data access object; its own converters come before those of the database. -/
def forDao (s : RoundSetting) (converters : List CustomConverter) : Setting where
  store := ⟨s.decls, s.config.maxConverterHops, converters ++ s.databaseConverters⟩
  environment := s.config.environment
  providers := s.providers
  rewriters := if s.config.rewriteUnusedColumns then s.rewriters else []
  verifier := s.verifier

end RoundSetting

/-- Writes the class for resolved methods. -/
def writeDao (dao : Dao) (methods : List ResolvedMethod) : GeneratedDao :=
  let (written, members) := (methods.mapM ResolvedMethod.write).run { className := dao.implName }
  GeneratedDao.ofMembers dao.name members written

def compileDao (s : RoundSetting) (dao : Dao) : Report GeneratedDao :=
  Report.anchored (some dao.name) do
    Report.suppressing (suppressedBy dao.suppressWarnings) do
      let setting := s.forDao (← convertersInScope s.decls dao.converters)
      return writeDao dao (← dao.methods.filterMapM (ResolvedMethod.resolve setting dao.name))

structure RoundOutput where
  daos : List GeneratedDao
  diagnostics : Log
deriving DecidableEq, Repr

/-- The verifier for a schema. That there is none is only a warning. -/
def openVerifier (openSchema : Declarations → Except String Verifier) (decls : Declarations) :
    Report (Option Verifier) := do
  match openSchema decls with
  | .ok verifier => return some verifier
  | .error reason =>
    Report.warn .cannotCreateVerificationDatabase (.noReferenceDatabase reason)
    return none

def compileAll (openSchema : Declarations → Except String Verifier) (decls : Declarations)
    (config : Config) (registry : Registry) : Report (List GeneratedDao) := do
  let verifier ← if config.verifyQueries then openVerifier openSchema decls else pure none
  let databaseConverters ←
    Report.anchored (some "database") (convertersInScope decls decls.databaseConverters)
  let setting : RoundSetting :=
    { decls, config, providers := registry.providers, rewriters := registry.rewriters, verifier,
      databaseConverters }
  decls.daos.mapM (compileDao setting)

/-- Compiles a project against the schema that `openSchema` sets up. -/
def runRoundWith (openSchema : Declarations → Except String Verifier) (decls : Declarations)
    (config : Config) (registry : Registry) : Except ConfigError RoundOutput := do
  let suppressed ← config.suppressed
  let (daos, logger) :=
    (compileAll openSchema (registry.extend decls) config registry).run { suppressed }
  return ⟨daos, logger.log⟩

end DataAccess.Compile
