import DataAccess.Diagnostics.Log
import DataAccess.Schema.Declarations

/-!
The converters that a list of classes brings into scope. Classes and methods that do not count and
conversions that are defined twice are reported.
-/

set_option autoImplicit false

namespace DataAccess.Compile

open Schema

def reportAt (anchor : String) (problem : Problem) : Report Unit :=
  Report.anchored (some anchor) (Report.error problem)

/-- A method as a converter; one from or to the unit type is none. -/
def converterOf (c : ConverterClass) (m : ConverterMethod) : Report (Option CustomConverter) := do
  let converter := CustomConverter.ofMethod c m
  if m.source.isUnit then
    reportAt converter.qualifiedName .converterFromUnit
    return none
  if m.target.isUnit then
    reportAt converter.qualifiedName .converterToUnit
    return none
  return some converter

/-- The converters of the class with a name. -/
def convertersOfClass (decls : Declarations) (name : String) : Report (List CustomConverter) := do
  match decls.converterClass? name with
  | none =>
    Report.error (.converterClassUndeclared name)
    return []
  | some c =>
    if c.methods.isEmpty then reportAt c.name .converterClassEmpty
    c.methods.filterMapM (converterOf c)

/-- The other names of the conversions between the same types. -/
def conflictsOf (converters : List CustomConverter) (c : CustomConverter) : List String :=
  let same := converters.filter fun d => d.source = c.source && d.target = c.target
  (same.map CustomConverter.qualifiedName).filter (· ≠ c.qualifiedName)

/-- Whether the conversion between the types of `c` is defined more than once. -/
def isDuplicate (converters : List CustomConverter) (c : CustomConverter) : Bool :=
  2 ≤ converters.countP fun d => d.source = c.source && d.target = c.target

def reportDuplicates (converters : List CustomConverter) : Report Unit :=
  (converters.filter (isDuplicate converters)).forM fun c =>
    reportAt c.qualifiedName (.duplicateConverters (conflictsOf converters c))

/-- The converters of classes in the order of classes and methods. -/
def convertersInScope (decls : Declarations) (classes : List String) :
    Report (List CustomConverter) := do
  let converters := (← classes.mapM (convertersOfClass decls)).flatten
  reportDuplicates converters
  return converters

end DataAccess.Compile
