import Clausal.Binary64.Layout
import Clausal.Dialect
import Clausal.Expr.Basic
import Clausal.Text.Hex

/-!
# Text of expressions

An operand is put in parentheses when its operator binds looser than the one it stands under, and when
it binds equally and stands on the right. A number after a minus sign is put in parentheses as well,
because the two would be read as a negative number.
-/

namespace Clausal

def Literal.text : Literal → String
  | integer i => toString i.toInt
  | float x => x.text .statement
  | string s => String.ofList (Text.Quoted.enclose '\'' s.toList)
  | blob bytes => String.ofList ('X' :: '\'' :: (Text.pairsOfBytes bytes ++ ['\'']))
  | boolean true => "TRUE"
  | boolean false => "FALSE"
  | null => "NULL"

def Path.render (d : Dialect) (p : Path) : String :=
  String.intercalate "." (p.parts.map d.identifier)

namespace Expr

/-- Puts the text of an operand of precedence `inner` in parentheses, if it stands under an operator of
precedence `outer` that binds tighter, or equally and strictly. -/
def enclosed (inner outer : Nat) (strict : Bool) (text : String) : String :=
  if inner < outer ∨ (strict ∧ inner = outer) then "(" ++ text ++ ")" else text

/-- Whether the expression is a number. -/
def isNumber : Expr → Bool
  | literal l => l.isNumeric
  | _ => false

mutual

/-- The text of an expression that stands alone. -/
def render (d : Dialect) : Expr → String
  | literal l => l.text
  | field p => p.render d
  | param p => p.text
  | wildcard => "*"
  | binary l op r =>
    enclosed l.precedence op.precedence false (render d l) ++ " " ++ op.text ++ " "
      ++ enclosed r.precedence op.precedence true (render d r)
  | unary .not e => "NOT " ++ enclosed e.precedence Precedence.not false (render d e)
  | unary .neg e =>
    if e.isNumber then "-(" ++ render d e ++ ")"
    else "-" ++ enclosed e.precedence Precedence.atom false (render d e)
  | isNull e negated =>
    enclosed e.precedence Precedence.compare false (render d e)
      ++ (if negated then " IS NOT NULL" else " IS NULL")
  | isIn e es negated =>
    enclosed e.precedence Precedence.compare false (render d e)
      ++ (if negated then " NOT IN (" else " IN (") ++ renderAll d es ++ ")"
  | between e low high negated =>
    enclosed e.precedence Precedence.compare false (render d e)
      ++ (if negated then " NOT BETWEEN " else " BETWEEN ")
      ++ enclosed low.precedence Precedence.compare true (render d low) ++ " AND "
      ++ enclosed high.precedence Precedence.compare true (render d high)
  | call function es distinct =>
    d.identifier function ++ "(" ++ (if distinct then "DISTINCT " else "") ++ renderAll d es ++ ")"

/-- The texts of several expressions with commas between them. -/
def renderAll (d : Dialect) : List Expr → String
  | [] => ""
  | [e] => render d e
  | e :: f :: rest => render d e ++ ", " ++ renderAll d (f :: rest)

end

/-- The text of an operand under an operator of precedence `outer`. -/
def renderIn (d : Dialect) (outer : Nat) (strict : Bool) (e : Expr) : String :=
  enclosed e.precedence outer strict (e.render d)

end Expr

end Clausal
