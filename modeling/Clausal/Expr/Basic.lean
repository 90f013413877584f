import Clausal.Expr.Operator
import Clausal.Expr.Path

/-!
# Expressions

The terms of which conditions, projections, assigned values and orderings are made. Equality is that of
numbers for floating-point literals, so it is not reflexive at NaN.
-/

namespace Clausal

inductive Literal where
  | integer (i : Int64)
  | float (x : Binary64)
  | string (s : String)
  | blob (bytes : List UInt8)
  | boolean (b : Bool)
  | null
  deriving BEq, DecidableEq, Repr

def Literal.isNumeric : Literal → Bool
  | integer _ | float _ => true
  | _ => false

/-- A placeholder for a value that is given later. -/
inductive Param where
  | positional (n : UInt32)
  | named (name : String)
  deriving DecidableEq, Repr

def Param.text : Param → String
  | positional n => "?" ++ toString n.toNat
  | named name => ":" ++ name

inductive Expr where
  | literal (l : Literal)
  | field (p : Path)
  | param (p : Param)
  /-- The star, which stands for all rows as the argument of a function. -/
  | wildcard
  | binary (left : Expr) (op : BinaryOp) (right : Expr)
  | unary (op : UnaryOp) (operand : Expr)
  | isNull (subject : Expr) (negated : Bool)
  | isIn (subject : Expr) (list : List Expr) (negated : Bool)
  | between (subject low high : Expr) (negated : Bool)
  | call (function : String) (args : List Expr) (distinct : Bool)
  deriving Repr

namespace Expr

def ofBool (b : Bool) : Expr := literal (.boolean b)

def null : Expr := literal .null

def countAll : Expr := call "COUNT" [wildcard] false

def countDistinct (e : Expr) : Expr := call "COUNT" [e] true

/-- The value of a boolean constant. -/
def asBool? : Expr → Option Bool
  | literal (.boolean b) => some b
  | _ => none

/-- How tightly the outermost operator binds. -/
def precedence : Expr → Nat
  | binary _ op _ => op.precedence
  | unary op _ => op.precedence
  | isNull .. | isIn .. | between .. => Precedence.compare
  | literal _ | field _ | param _ | wildcard | call .. => Precedence.atom

mutual

def equal : Expr → Expr → Bool
  | literal a, literal b => a == b
  | field a, field b => a == b
  | param a, param b => a == b
  | wildcard, wildcard => true
  | binary l op r, binary l' op' r' => equal l l' && op == op' && equal r r'
  | unary op e, unary op' e' => op == op' && equal e e'
  | isNull e n, isNull e' n' => equal e e' && n == n'
  | isIn e es n, isIn e' es' n' => equal e e' && equalAll es es' && n == n'
  | between e l h n, between e' l' h' n' => equal e e' && equal l l' && equal h h' && n == n'
  | call f es d, call f' es' d' => f == f' && equalAll es es' && d == d'
  | _, _ => false

def equalAll : List Expr → List Expr → Bool
  | [], [] => true
  | a :: as, b :: bs => equal a b && equalAll as bs
  | _, _ => false

end

instance : BEq Expr := ⟨equal⟩

/-- The conjuncts of a tree of conjunctions, left to right. -/
def conjuncts : Expr → List Expr
  | binary l .and r => conjuncts l ++ conjuncts r
  | e => [e]

end Expr

end Clausal
