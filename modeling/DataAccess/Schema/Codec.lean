import DataAccess.Data.Decode
import DataAccess.Schema.Declarations
import DataAccess.TypeExpr.Syntax

/-!
Declarations as data trees: reading them, and the trees that they are written as.
-/

set_option autoImplicit false

namespace DataAccess.Schema

open Data

def typeOf? (v : Value) : Option TypeExpr :=
  v.string?.bind fun s => (TypeExpr.parse s).toOption

def typeValue (t : TypeExpr) : Value := .string t.display

/-- The members of an object that have a value. -/
def present (members : List (String × Option Value)) : List (String × Value) :=
  members.filterMap fun (name, v) => v.map (name, ·)

def strings (xs : List String) : Value := .list (xs.map .string)

def Field.ofValue? (v : Value) : Option Field := do
  let ms ← Members.of? ["name", "type", "column", "affinity", "default_value"] v
  return {
    name := ← ms.required? "name" Value.string?
    type := ← ms.required? "type" typeOf?
    column := ← ms.nullable? "column" Value.string?
    affinity := ← ms.nullable? "affinity" (Value.oneOf? Affinity.all Affinity.name)
    default := ← ms.nullable? "default_value" Value.string? }

def Field.toValue (f : Field) : Value :=
  .object (present [
    ("name", some (.string f.name)),
    ("type", some (typeValue f.type)),
    ("column", f.column.map .string),
    ("affinity", f.affinity.map fun a => .string a.name),
    ("default_value", f.default.map .string)])

def Embedded.ofValue? (v : Value) : Option Embedded := do
  let ms ← Members.of? ["field", "type", "prefix"] v
  return {
    member := ← ms.required? "field" Value.string?
    type := ← ms.required? "type" typeOf?
    lead := ← ms.defaulted? "prefix" Value.string? "" }

def Embedded.toValue (e : Embedded) : Value :=
  .object [("field", .string e.member), ("type", typeValue e.type), ("prefix", .string e.lead)]

def Relation.ofValue? (v : Value) : Option Relation := do
  let ms ← Members.of?
    ["field", "type", "entity", "parent_column", "entity_column", "projection"] v
  return {
    member := ← ms.required? "field" Value.string?
    type := ← ms.required? "type" typeOf?
    entity := ← ms.required? "entity" Value.string?
    parentColumn := ← ms.required? "parent_column" Value.string?
    entityColumn := ← ms.required? "entity_column" Value.string?
    projection := ← ms.nullable? "projection" Value.string? }

def Relation.toValue (r : Relation) : Value :=
  .object (present [
    ("field", some (.string r.member)),
    ("type", some (typeValue r.type)),
    ("entity", some (.string r.entity)),
    ("parent_column", some (.string r.parentColumn)),
    ("entity_column", some (.string r.entityColumn)),
    ("projection", r.projection.map .string)])

namespace Record

def memberNames : List String := ["name", "fields", "embedded", "relations"]

def ofMembers? (ms : Members) : Option Record := do
  return {
    name := ← ms.required? "name" Value.string?
    fields := ← ms.list? "fields" Field.ofValue?
    embedded := ← ms.list? "embedded" Embedded.ofValue?
    relations := ← ms.list? "relations" Relation.ofValue? }

def ofValue? (v : Value) : Option Record := (Members.of? memberNames v).bind ofMembers?

def members (r : Record) : List (String × Value) :=
  [("name", .string r.name),
    ("fields", .list (r.fields.map Field.toValue)),
    ("embedded", .list (r.embedded.map Embedded.toValue)),
    ("relations", .list (r.relations.map Relation.toValue))]

end Record

def Entity.ofValue? (v : Value) : Option Entity := do
  let ms ← Members.ofObject? (Record.memberNames ++ ["table", "primary_key", "ddl"]) v
  return {
    record := ← Record.ofMembers? ms
    table := ← ms.nullable? "table" Value.string?
    primaryKey := ← ms.strings? "primary_key"
    ddl := ← ms.nullable? "ddl" Value.string? }

def Entity.toValue (e : Entity) : Value :=
  .object (e.record.members ++ present [
    ("table", e.table.map .string),
    ("primary_key", some (strings e.primaryKey)),
    ("ddl", e.ddl.map .string)])

def View.ofValue? (v : Value) : Option View := do
  let ms ← Members.ofObject? (Record.memberNames ++ ["view", "query"]) v
  return {
    record := ← Record.ofMembers? ms
    view := ← ms.nullable? "view" Value.string?
    query := ← ms.required? "query" Value.string? }

def View.toValue (v : View) : Value :=
  .object (v.record.members ++ present [
    ("view", v.view.map .string),
    ("query", some (.string v.query))])

def ConverterMethod.ofValue? (v : Value) : Option ConverterMethod := do
  let ms ← Members.of? ["name", "from", "to"] v
  return {
    name := ← ms.required? "name" Value.string?
    source := ← ms.required? "from" typeOf?
    target := ← ms.required? "to" typeOf? }

def ConverterMethod.toValue (m : ConverterMethod) : Value :=
  .object [("name", .string m.name), ("from", typeValue m.source), ("to", typeValue m.target)]

def converterKindOf? : Value → Option ConverterKind :=
  Value.oneOf? ConverterKind.all ConverterKind.name

def ConverterClass.ofValue? (v : Value) : Option ConverterClass := do
  let ms ← Members.of? ["name", "kind", "methods"] v
  return {
    name := ← ms.required? "name" Value.string?
    kind := ← ms.defaulted? "kind" converterKindOf? .static
    methods := ← ms.list? "methods" ConverterMethod.ofValue? }

def ConverterClass.toValue (c : ConverterClass) : Value :=
  .object [("name", .string c.name), ("kind", .string c.kind.name),
    ("methods", .list (c.methods.map ConverterMethod.toValue))]

def Param.ofValue? (v : Value) : Option Param := do
  let ms ← Members.of? ["name", "type", "sql_name"] v
  return {
    name := ← ms.required? "name" Value.string?
    type := ← ms.required? "type" typeOf?
    sqlName := ← ms.nullable? "sql_name" Value.string? }

def Param.toValue (p : Param) : Value :=
  .object (present [
    ("name", some (.string p.name)),
    ("type", some (typeValue p.type)),
    ("sql_name", p.sqlName.map .string)])

def Method.ofValue? (v : Value) : Option Method := do
  let ms ← Members.of? ["name", "kind", "sql", "returns", "params", "suspend",
    "skip_verification", "transaction", "delegate", "on_conflict", "suppress_warnings"] v
  return {
    name := ← ms.required? "name" Value.string?
    kind := ← ms.defaulted? "kind" (Value.oneOf? MethodKind.all MethodKind.name) .query
    sql := ← ms.nullable? "sql" Value.string?
    returns := ← ms.defaulted? "returns" typeOf? .unit
    params := ← ms.list? "params" Param.ofValue?
    suspend := ← ms.defaulted? "suspend" Value.bool? false
    skipVerification := ← ms.defaulted? "skip_verification" Value.bool? false
    transaction := ← ms.defaulted? "transaction" Value.bool? false
    delegate := ← ms.nullable? "delegate" Value.string?
    onConflict := ← ms.defaulted? "on_conflict" (Value.oneOf? OnConflict.all OnConflict.name)
      .abort
    suppressWarnings := ← ms.strings? "suppress_warnings" }

def Method.toValue (m : Method) : Value :=
  .object (present [
    ("name", some (.string m.name)),
    ("kind", some (.string m.kind.name)),
    ("sql", m.sql.map .string),
    ("returns", some (typeValue m.returns)),
    ("params", some (.list (m.params.map Param.toValue))),
    ("suspend", some (.bool m.suspend)),
    ("skip_verification", some (.bool m.skipVerification)),
    ("transaction", some (.bool m.transaction)),
    ("delegate", m.delegate.map .string),
    ("on_conflict", some (.string m.onConflict.name)),
    ("suppress_warnings", some (strings m.suppressWarnings))])

def Dao.ofValue? (v : Value) : Option Dao := do
  let ms ← Members.of? ["name", "converters", "suppress_warnings", "methods"] v
  return {
    name := ← ms.required? "name" Value.string?
    converters := ← ms.strings? "converters"
    suppressWarnings := ← ms.strings? "suppress_warnings"
    methods := ← ms.list? "methods" Method.ofValue? }

def Dao.toValue (d : Dao) : Value :=
  .object [("name", .string d.name), ("converters", strings d.converters),
    ("suppress_warnings", strings d.suppressWarnings),
    ("methods", .list (d.methods.map Method.toValue))]

/-- The converter classes of the database part. -/
def databaseConvertersOf? (v : Value) : Option (List String) := do
  let ms ← Members.of? ["converters"] v
  ms.strings? "converters"

def Declarations.ofValue? (v : Value) : Option Declarations := do
  let ms ← Members.of? ["database", "entities", "views", "pojos", "converters", "daos"] v
  return {
    databaseConverters := ← ms.defaulted? "database" databaseConvertersOf? []
    entities := ← ms.list? "entities" Entity.ofValue?
    views := ← ms.list? "views" View.ofValue?
    records := ← ms.list? "pojos" Record.ofValue?
    converters := ← ms.list? "converters" ConverterClass.ofValue?
    daos := ← ms.list? "daos" Dao.ofValue? }

def Declarations.toValue (d : Declarations) : Value :=
  .object [
    ("database", .object [("converters", strings d.databaseConverters)]),
    ("entities", .list (d.entities.map Entity.toValue)),
    ("views", .list (d.views.map View.toValue)),
    ("pojos", .list (d.records.map fun r => .object r.members)),
    ("converters", .list (d.converters.map ConverterClass.toValue)),
    ("daos", .list (d.daos.map Dao.toValue))]

end DataAccess.Schema
