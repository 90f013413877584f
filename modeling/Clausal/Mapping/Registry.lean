import Clausal.Mapping.Mapper

/-!
# Registries

The mappers of the types that can be stored, one for each type. The default registry stores every
built-in type in a column of its own kind, and identifiers with their revisions.
-/

namespace Clausal

/-- The mapper of every type that can be stored. -/
structure Registry where
  mappers : List (LogicalType × Mapper)

namespace Registry

def empty : Registry := ⟨[]⟩

/-- Adds a mapper, instead of another one for the same type. -/
def register (r : Registry) (m : Mapper) : Registry :=
  ⟨(m.source, m) :: r.mappers.filter fun e => e.1 != m.source⟩

def find? (r : Registry) (type : LogicalType) : Option Mapper :=
  (r.mappers.find? fun e => e.1 == type).map (·.2)

/-- The mapper of a type, which must have one. -/
def lookup (r : Registry) (type : LogicalType) : Except Error Mapper :=
  match r.find? type with
  | some m => .ok m
  | none => .error (.unmapped type)

def contains (r : Registry) (type : LogicalType) : Bool := (r.find? type).isSome

def size (r : Registry) : Nat := r.mappers.length

def default : Registry :=
  [ Mapper.scalar .bool .boolean, .scalar .int .integer, .scalar .long .bigint,
    .scalar .float .double, .scalar .text .text, .scalar .bytes .blob, .scalar .date .date,
    .scalar .timestamp .timestamp, .key true ].foldl register empty

end Registry

end Clausal
