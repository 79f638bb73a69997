import DataAccess.Schema.Record

/-!
The shape of a record: its own fields, and the shapes of its embedded records with their column
leads already applied.
-/

set_option autoImplicit false

namespace DataAccess.Schema

inductive Shape where
  | mk (type : TypeExpr) (fields : List Field) (relations : List Relation)
    (embedded : List (String × Shape))
deriving Repr

/-- A field with the members that lead to it, outermost first. -/
structure FieldPath where
  path : List String
  field : Field
deriving DecidableEq, Repr

namespace FieldPath

def display (f : FieldPath) : String := ".".intercalate f.path

/-- A fragment of the names of local variables for the field. -/
def fragment (f : FieldPath) : String := "_".intercalate f.path

end FieldPath

namespace Shape

def type : Shape → TypeExpr
  | .mk t _ _ _ => t

def fields : Shape → List Field
  | .mk _ fs _ _ => fs

def relations : Shape → List Relation
  | .mk _ _ rs _ => rs

def embedded : Shape → List (String × Shape)
  | .mk _ _ _ es => es

def typeName (s : Shape) : String := s.type.display

mutual

/-- All fields under `path`, depth first, the own ones before the embedded ones. -/
def fieldsUnder (path : List String) : Shape → List FieldPath
  | .mk _ fields _ embedded =>
    fields.map (fun f => ⟨path ++ [f.name], f⟩) ++ embeddedFields path embedded

def embeddedFields (path : List String) : List (String × Shape) → List FieldPath
  | [] => []
  | (member, shape) :: rest => shape.fieldsUnder (path ++ [member]) ++ embeddedFields path rest

end

def allFields (s : Shape) : List FieldPath := s.fieldsUnder []

mutual

/-- All relations under `path` with the members that lead to them. -/
def relationsUnder (path : List String) : Shape → List (List String × Relation)
  | .mk _ _ relations embedded =>
    relations.map (fun r => (path ++ [r.member], r)) ++ embeddedRelations path embedded

def embeddedRelations (path : List String) : List (String × Shape) → List (List String × Relation)
  | [] => []
  | (member, shape) :: rest =>
    shape.relationsUnder (path ++ [member]) ++ embeddedRelations path rest

end

def allRelations (s : Shape) : List (List String × Relation) := s.relationsUnder []

def hasRelations (s : Shape) : Bool := !s.allRelations.isEmpty

/-- The first field that is read from a column. -/
def findByColumn? (s : Shape) (column : String) : Option FieldPath :=
  s.allFields.find? (·.field.columnName = column)

def columns (s : Shape) : List Field := s.allFields.map FieldPath.field

end Shape

end DataAccess.Schema
