import Clausal.Clause.ColumnList
import Clausal.Value.Basic

/-!
# Rows

A row is a list of entries, each the value of one physical column. Rows are read by position; names are
only checked.
-/

namespace Clausal

structure Entry where
  column : Column
  value : Value
  deriving BEq, Repr

structure Row where
  entries : List Entry
  deriving BEq, Repr

namespace Row

def empty : Row := ⟨[]⟩

def names (r : Row) : List String := r.entries.map (·.column.name)

def size (r : Row) : Nat := r.entries.length

def isEmpty (r : Row) : Bool := r.entries.isEmpty

/-- The value of the first column with a name. -/
def get? (r : Row) (name : String) : Option Value :=
  (r.entries.find? fun e => e.column.name == name).map (·.value)

def text (r : Row) : String := "[" ++ String.intercalate ", " r.names ++ "]"

end Row

end Clausal
