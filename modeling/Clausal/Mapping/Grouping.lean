import Clausal.Mapping.Columns

/-!
# Grouping columns by field

A table definition lists columns; the fields that they store are known only from the entity. When the
fields are given their columns in the order of their names, each taking as many as it needs and of the
names it needs, and no column is left, the list has been understood, and every field has a group of its
own. The types of the columns do not matter.
-/

namespace Clausal

namespace Storage

/-- Gives a field its columns at the front of a list, and leaves the others. -/
def claim? (s : Storage) (f : Field) (written : List Column) : Option (ColumnGroup × List Column) :=
  match s.fieldColumns f with
  | .error _ => none
  | .ok needed =>
    let claimed := written.take needed.length
    if claimed.map (·.name) = needed.map (·.name) then
      some (⟨.bare f.name, claimed⟩, written.drop needed.length)
    else none

/-- Gives every field its columns, one field after the other, until no column is left. -/
def claimAll? (s : Storage) : List (Field × Nat) → List Column → Option (List (ColumnGroup × Nat))
  | [], [] => some []
  | [], _ :: _ => none
  | (f, position) :: rest, written => do
    let (group, written) ← s.claim? f written
    let groups ← s.claimAll? rest written
    pure ((group, position) :: groups)

/-- The groups of an entity's columns, in the order in which its fields are declared. -/
def groups? (s : Storage) (e : Entity) (written : List Column) : Option (List ColumnGroup) :=
  if e.isOpaque then none
  else do
    let byName := e.fields.zipIdx.mergeSort fun a b => (compare a.1.name b.1.name).isLE
    let groups ← s.claimAll? byName written
    pure ((groups.mergeSort fun a b => a.2 ≤ b.2).map (·.1))

end Storage

end Clausal
