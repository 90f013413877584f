import Clausal.Expr.Leaves

/-!
# Assignments

Values for paths, in the order in which they were given. A path may be given twice: then the last value
counts, at the place of the first.
-/

namespace Clausal

structure Assignment where
  path : Path
  value : Expr
  deriving BEq, Repr

namespace Assignment

/-- Adds an assignment: in place of one to the same path, or at the end. -/
def put (as : List Assignment) (a : Assignment) : List Assignment :=
  if as.any fun b => b.path == a.path then
    as.map fun b => if b.path == a.path then a else b
  else as ++ [a]

/-- The assignments that count. -/
def effective (as : List Assignment) : List Assignment := as.foldl put []

def rename (old new : String) (a : Assignment) : Assignment :=
  ⟨a.path.rename old new, a.value.rename old new⟩

end Assignment

end Clausal
