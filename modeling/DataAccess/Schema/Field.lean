import DataAccess.Affinity

/-!
Fields that map to one column each.
-/

set_option autoImplicit false

namespace DataAccess.Schema

structure Field where
  name : String
  type : TypeExpr
  /-- The column name, when it is not the field name. -/
  column : Option String := none
  affinity : Option Affinity := none
  /-- A default value, as it is written in a table definition. -/
  default : Option String := none
deriving DecidableEq, Repr

namespace Field

def columnName (f : Field) : String := f.column.getD f.name

def isRequired (f : Field) : Bool := !f.type.isOption

/-- The declared affinity, or else the one of the type. -/
def storage? (f : Field) : Option Affinity := f.affinity.or (Affinity.ofType? f.type)

/-- Values of unknown types are stored as text. -/
def storage (f : Field) : Affinity := f.storage?.getD .text

/-- A text that two columns share exactly when they look the same in a schema. -/
def identity (f : Field) : String :=
  f.columnName ++ "-" ++ f.storage.name ++ "-" ++ toString f.isRequired ++
    (f.default.map ("-defaultValue=" ++ ·)).getD ""

/-- The column in a table definition. -/
def definition (f : Field) : String :=
  Text.quoteName f.columnName ++ " " ++ f.storage.name ++
    (if f.isRequired then " NOT NULL" else "") ++ (f.default.map (" DEFAULT " ++ ·)).getD ""

/-- The field as it is read inside an embedded record, whose columns start with `lead`. -/
def withLead (lead : String) (f : Field) : Field :=
  if lead.isEmpty then f else { f with column := some (lead ++ f.columnName) }

theorem columnName_withLead (lead : String) (f : Field) :
    (f.withLead lead).columnName = lead ++ f.columnName := by
  unfold withLead
  split
  · simp_all
  · rfl

end Field

end DataAccess.Schema
