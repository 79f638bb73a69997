import DataAccess.Diagnostics.Problem
import DataAccess.Schema.Dao
import DataAccess.Schema.Shape

/-!
All declarations of a project. `resolveShape` unfolds a record into its shape; embedding deeper than
`maxEmbedding` steps counts as a cycle.
-/

set_option autoImplicit false

namespace DataAccess.Schema

structure Declarations where
  /-- The converter classes that hold for every data access object. -/
  databaseConverters : List String := []
  entities : List Entity := []
  views : List View := []
  records : List Record := []
  converters : List ConverterClass := []
  daos : List Dao := []
deriving DecidableEq, Repr

namespace Declarations

def entity? (d : Declarations) (name : String) : Option Entity :=
  d.entities.find? (·.name = name)

def converterClass? (d : Declarations) (name : String) : Option ConverterClass :=
  d.converters.find? (·.name = name)

/-- Everything that is read as a record: entities, views, then plain records. -/
def allRecords (d : Declarations) : List Record :=
  d.entities.map Entity.record ++ d.views.map View.record ++ d.records

def record? (d : Declarations) (name : String) : Option Record :=
  d.allRecords.find? (·.name = name)

/-- The record that a type names; a type with arguments names none. -/
def recordOf? (d : Declarations) (t : TypeExpr) : Option Record :=
  if t.args.isEmpty then d.record? t.name else none

def isRecordType (d : Declarations) (t : TypeExpr) : Bool := (d.recordOf? t).isSome

def maxEmbedding : Nat := 16

/-- The shape of a type whose columns start with `lead`, with at most `steps` more embeddings. -/
def shapeWithin (d : Declarations) (steps : Nat) (lead : String) (t : TypeExpr) :
    Except Problem Shape :=
  match steps, d.recordOf? t with
  | 0, _ => .error (.unknownRecord t.display)
  | _, none => .error (.unknownRecord t.display)
  | steps + 1, some record => do
    let embedded ← record.embedded.mapM fun e =>
      if e.type.isOption then .error .optionalEmbedded
      else do
        let shape ← d.shapeWithin steps (lead ++ e.lead) e.type
        return (e.member, shape)
    return .mk record.type (record.fields.map (·.withLead lead)) record.relations embedded

def resolveShape (d : Declarations) (t : TypeExpr) : Except Problem Shape :=
  d.shapeWithin (maxEmbedding + 1) "" t

end Declarations

end DataAccess.Schema
