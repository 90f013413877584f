import Clausal.Error

/-!
# Entities

An entity is the template of a record: a name, the table that holds such records, and the fields in the
order of their declaration. An entity that declares no field is opaque: it accepts every field name.
-/

namespace Clausal

structure Field where
  name : String
  type : LogicalType
  nullable : Bool
  key : Bool
  /-- The column that is asked for, instead of one named after the field. -/
  column : Option String
  deriving DecidableEq, Repr

/-- A record template. -/
structure Entity where
  name : String
  /-- The table, if it is not named like the entity. -/
  table : Option String
  fields : List Field
  deriving DecidableEq, Repr

namespace Entity

/-- The entity of which only the name is known. -/
def opaqueNamed (name : String) : Entity := ⟨name, none, []⟩

/-- The name under which statements refer to the entity. -/
def tableName (e : Entity) : String := e.table.getD e.name

def field? (e : Entity) (name : String) : Option Field := e.fields.find? fun f => f.name == name

/-- Whether the entity declares no field. -/
def isOpaque (e : Entity) : Bool := e.fields.isEmpty

/-- Refuses the name of a field that the entity does not have. -/
def requireField (e : Entity) (name : String) : Except Error Unit :=
  if e.isOpaque || (e.field? name).isSome then .ok () else .error (.unknownField e.name name)

end Entity

end Clausal
