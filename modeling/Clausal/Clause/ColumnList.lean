import Clausal.Expr.Leaves
import Clausal.Schema.ColumnType

/-!
# Column lists

The columns and constraints of a table definition. A field may take up several columns, which stay
together. When the fields are known the groups are written in the order of their paths; a list that was
read without knowing the fields keeps the order in which it was written.
-/

namespace Clausal

structure Column where
  name : String
  type : ColumnType
  deriving DecidableEq, Repr

structure ColumnGroup where
  path : Path
  /-- The columns, the primary one first. -/
  columns : List Column
  deriving DecidableEq, Repr

inductive Constraint.Kind where
  | primaryKey (columns : List String)
  | unique (columns : List String)
  | check (condition : Expr)
  deriving BEq, Repr

structure Constraint where
  name : String
  kind : Constraint.Kind
  deriving BEq, Repr

structure ColumnList where
  groups : List ColumnGroup
  constraints : List Constraint
  /-- Whether the groups are columns as they were read, in their order. -/
  asWritten : Bool
  deriving BEq, Repr

namespace ColumnList

def empty : ColumnList := ⟨[], [], false⟩

/-- The groups in the order in which they are written. -/
def sortedGroups (l : ColumnList) : List ColumnGroup :=
  if l.asWritten then l.groups
  else l.groups.mergeSort fun a b => (compare a.path b.path).isLE

def sortedConstraints (l : ColumnList) : List Constraint :=
  l.constraints.mergeSort fun a b => (compare a.name b.name).isLE

def isOmitted (l : ColumnList) : Bool := l.groups.isEmpty && l.constraints.isEmpty

end ColumnList

end Clausal
