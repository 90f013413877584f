import Clausal.Expr.Basic

/-!
# Folding constants

Boolean constants are folded through conjunction, disjunction and negation, and a double negation is
dropped. Nothing else changes: a comparison with a boolean constant stays.
-/

namespace Clausal.Expr

/-- A conjunction or disjunction of two folded operands. The constant `absorbing` decides it alone, and
the other constant leaves the other operand. -/
def foldConnective (op : BinaryOp) (absorbing : Bool) (l r : Expr) : Expr :=
  if l.asBool? = some absorbing ∨ r.asBool? = some absorbing then literal (.boolean absorbing)
  else if l.asBool?.isSome then r
  else if r.asBool?.isSome then l
  else binary l op r

/-- The negation of a folded operand. -/
def foldNegation : Expr → Expr
  | literal (.boolean b) => literal (.boolean !b)
  | unary .not e => e
  | e => unary .not e

/-- Folds boolean constants. -/
def simplify : Expr → Expr
  | binary l .and r => foldConnective .and false (simplify l) (simplify r)
  | binary l .or r => foldConnective .or true (simplify l) (simplify r)
  | unary .not e => foldNegation (simplify e)
  | e => e

end Clausal.Expr
