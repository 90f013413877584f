import Clausal.Binary64.Shortest

/-!
# Decimal layout

How the digits of a number are laid out as text. Numbers of moderate size are written positionally and
always with a point, so that they cannot be taken for whole numbers; the others have one digit before
the point and an exponent. Statement text and JSON text differ in where the positional range begins, in
whether a positive exponent carries its sign, and in the rule for ties.
-/

namespace Clausal.Binary64

structure Layout where
  /-- The least decimal exponent that is written positionally. -/
  lowest : Int
  /-- The greatest decimal exponent that is written positionally. -/
  highest : Int
  plusSign : Bool
  tie : Tie

/-- Statement text is positional from 0.0001 up to, but not including, 10^16. -/
def Layout.statement : Layout := ⟨-4, 15, false, .up⟩

/-- JSON text is positional from 0.00001 up to, but not including, 10^16, and writes the plus sign. -/
def Layout.json : Layout := ⟨-5, 15, true, .even⟩

/-- Digits laid out positionally, where the first one counts `10 ^ lead`. -/
def positional (digits : List Char) (lead : Int) : List Char :=
  if lead < 0 then '0' :: '.' :: (List.replicate (-lead - 1).toNat '0' ++ digits)
  else
    let whole := lead.toNat + 1
    let padded := digits ++ List.replicate (whole - digits.length) '0'
    let rest := padded.drop whole
    padded.take whole ++ '.' :: (if rest.isEmpty then ['0'] else rest)

/-- Digits laid out with an exponent. -/
def scientific (plusSign : Bool) (digits : List Char) (lead : Int) : List Char :=
  let sign := if lead < 0 then ['-'] else if plusSign then ['+'] else []
  digits.take 1 ++ (if digits.length ≤ 1 then [] else '.' :: digits.drop 1)
    ++ 'e' :: (sign ++ Nat.toDigits 10 lead.natAbs)

/-- The text of a finite number's size. -/
def sizeText (layout : Layout) (code : Nat) : List Char :=
  if code = 0 then ['0', '.', '0']
  else
    let d := shortest layout.tie code
    let digits := Nat.toDigits 10 d.digits
    let lead := d.exponent + digits.length - 1
    if layout.lowest ≤ lead ∧ lead ≤ layout.highest then positional digits lead
    else scientific layout.plusSign digits lead

def text (layout : Layout) (x : Binary64) : String :=
  if x.isNaN then "NaN"
  else
    let size := if x.isFinite then sizeText layout x.code else ['i', 'n', 'f']
    String.ofList (if x.negative then '-' :: size else size)

end Clausal.Binary64
