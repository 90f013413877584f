/-!
# Operators

The operators of expressions and how tightly they bind. Writing and reading use the same precedences.
For reading, an operator of precedence `p` has a left and a right power, one apart, so that operators
of equal precedence group to the left.
-/

namespace Clausal

inductive BinaryOp where
  | add
  | sub
  | mul
  | div
  | mod
  | eq
  | notEq
  | lt
  | ltEq
  | gt
  | gtEq
  | like
  | notLike
  | and
  | or
  | concat
  | bitAnd
  | bitOr
  | leftShift
  | rightShift
  deriving DecidableEq, Repr

inductive UnaryOp where
  | neg
  | not
  deriving DecidableEq, Repr

namespace Precedence

def or : Nat := 10

def and : Nat := 20

def not : Nat := 25

/-- The precedence of comparisons and of the tests `LIKE`, `IS`, `IN` and `BETWEEN`. -/
def compare : Nat := 30

def neg : Nat := 90

/-- The precedence of everything that needs no operator. -/
def atom : Nat := 100

/-- The power with which an operator of a precedence binds the operand before it. -/
def leftPower (p : Nat) : Nat := 2 * (p / 10) - 1

/-- The power with which an operator of a precedence binds the operand after it. -/
def rightPower (p : Nat) : Nat := 2 * (p / 10)

end Precedence

namespace BinaryOp

def text : BinaryOp → String
  | add => "+"
  | sub => "-"
  | mul => "*"
  | div => "/"
  | mod => "%"
  | eq => "="
  | notEq => "<>"
  | lt => "<"
  | ltEq => "<="
  | gt => ">"
  | gtEq => ">="
  | like => "LIKE"
  | notLike => "NOT LIKE"
  | and => "AND"
  | or => "OR"
  | concat => "||"
  | bitAnd => "&"
  | bitOr => "|"
  | leftShift => "<<"
  | rightShift => ">>"

def precedence : BinaryOp → Nat
  | or => Precedence.or
  | and => Precedence.and
  | eq | notEq | lt | ltEq | gt | gtEq | like | notLike => Precedence.compare
  | bitOr => 40
  | bitAnd => 50
  | leftShift | rightShift => 60
  | add | sub | concat => 70
  | mul | div | mod => 80

end BinaryOp

def UnaryOp.precedence : UnaryOp → Nat
  | neg => Precedence.neg
  | not => Precedence.not

end Clausal
