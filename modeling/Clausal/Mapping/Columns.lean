import Clausal.Clause.ColumnList
import Clausal.Mapping.Naming
import Clausal.Mapping.Registry

/-!
# Columns of a field

The columns into which a field is expanded: link by link, and for a link into another logical type the
columns of that type, under the name that the link derives. An expansion that goes deeper than there are
types has come back to a type that it started from, and would never end.
-/

namespace Clausal

namespace Registry

/-- Expands a mapper, going down through at most `depth` types. -/
def expand (r : Registry) : Nat → Mapper → String → Except Error (List Column)
  | 0, m, _ => .error (.endless m.source)
  | depth + 1, m, base => do
    let groups ← m.links.mapM fun link =>
      match link.target with
      | .column type => pure [⟨link.columnName base, type⟩]
      | .logical type => do
        let child ← r.lookup type
        r.expand depth child (link.columnName base)
    pure groups.flatten

/-- The columns that a mapper needs for a field whose column is named `base`. -/
def physicalColumns (r : Registry) (m : Mapper) (base : String) : Except Error (List Column) :=
  r.expand (r.size + 1) m base

end Registry

/-- How records are stored: the mappers of their types and the names of their columns. -/
structure Storage where
  registry : Registry
  naming : Naming

namespace Storage

def fieldColumns (s : Storage) (f : Field) : Except Error (List Column) := do
  let m ← s.registry.lookup f.type
  s.registry.physicalColumns m (s.naming.columnName f)

end Storage

end Clausal
