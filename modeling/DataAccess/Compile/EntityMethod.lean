import DataAccess.Compile.Setting

/-!
Methods that insert, update or delete the entities they are given.
-/

set_option autoImplicit false

namespace DataAccess.Compile

open Code Delivery Schema Sql Statement

/-- The kind of statement that a method of this kind runs for its entities. -/
def statementKind? : MethodKind → Option StatementKind
  | .insert => some .insert
  | .update => some .update
  | .delete => some .delete
  | .query | .transaction => none

structure EntityMethod where
  name : String
  returns : TypeExpr
  entityWrite : EntityWrite
  binder : WriteBinder

namespace EntityMethod

/-- How many entities the parameters of a method hold. -/
def entityParams : List Param → EntityParams
  | [only] => if only.type.isVec then .oneCollection else .one
  | _ => .several

/-- Reports what is wrong with a declaration apart from its types. -/
def checkDeclaration (m : Schema.Method) (kind : StatementKind) : Report Unit := do
  if m.sql.isSome then Report.error .shortcutWithQuery
  if kind = .delete && m.onConflict ≠ .abort then Report.error .deleteWithConflictStrategy
  if m.params.isEmpty then Report.error .shortcutWithoutParameters

/-- Reports entities whose rows cannot be found. -/
def checkKeys (kind : StatementKind) (params : List EntityParam) : Report Unit := do
  if kind ≠ .insert then
    (params.filter (·.primaryKey.isEmpty)).forM fun p =>
      Report.error (.entityWithoutPrimaryKey p.entity kind.name)

def resolve (s : Setting) (m : Schema.Method) (kind : StatementKind) : Report (Option EntityMethod) :=
  unlessReported do
    checkDeclaration m kind
    let params ← m.params.filterMapM fun p => (EntityParam.resolve s.store p).run
    checkKeys kind params
    let binder ← s.writeBinder m { kind, entities := some (entityParams m.params) }
    if binder.result.isNone then
      Report.error (.noShortcutResultAdapter m.returns.display kind.name)
    return some ⟨m.name, m.returns, ⟨kind, m.onConflict, params⟩, binder⟩

def write (m : EntityMethod) : StateM ClassMembers Code.Method := do
  let (_, body) ← Emit.methodBody (m.binder.write m.entityWrite.prepare)
  let params := m.entityWrite.params.map fun p => (p.name, p.type)
  let returns := m.binder.returnType m.returns
  return { name := m.name, signature := signature params returns, body, isAsync := m.binder.isAsync }

end EntityMethod

end DataAccess.Compile
