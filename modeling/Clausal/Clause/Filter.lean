import Clausal.Expr.Leaves
import Clausal.Expr.Simplify

/-!
# Filters

The conditions of a WHERE or HAVING clause. Conditions are added one after the other; each is folded
first, and a conjunction is taken apart. What is constantly true leaves no trace, and what is constantly
false leaves nothing else.
-/

namespace Clausal

inductive Filter where
  /-- Nothing meets the conditions. -/
  | unsatisfiable
  | all (predicates : List Expr)
  deriving BEq, Repr

namespace Filter

def empty : Filter := all []

def predicates : Filter → List Expr
  | unsatisfiable => []
  | all ps => ps

def isUnsatisfiable : Filter → Bool
  | unsatisfiable => true
  | all _ => false

def isOmitted : Filter → Bool
  | unsatisfiable => false
  | all ps => ps.isEmpty

def and : Filter → Expr → Filter
  | unsatisfiable, _ => unsatisfiable
  | all ps, e =>
    match e.simplify with
    | .literal (.boolean true) => all ps
    | .literal (.boolean false) => unsatisfiable
    | folded => all (ps ++ folded.conjuncts)

def ofList (es : List Expr) : Filter := es.foldl and empty

def rename (old new : String) : Filter → Filter
  | unsatisfiable => unsatisfiable
  | all ps => all (ps.map (Expr.rename old new))

end Filter

end Clausal
