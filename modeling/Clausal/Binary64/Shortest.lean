import Clausal.Binary64.Basic

/-!
# The fewest digits that read back

The decimal digits that stand for a number: as few as possible so that rounding them to the nearest
number gives the number again, and among those the nearest to it. With `n` digits only the two
neighbours of the number on the grid of `n`-digit decimals can qualify, so these are tried for
`n = 1, 2, …, 17`. The exact expansion is the last resort; it reads back by definition. A number half
way between two neighbours that both qualify is settled by a rule for ties.
-/

namespace Clausal.Binary64

/-- Which of two equally near decimals is taken. -/
inductive Tie where
  | up
  | even
  deriving DecidableEq, Repr

/-- A positive decimal number `digits * 10 ^ exponent`. -/
structure Decimal where
  digits : Nat
  exponent : Int
  deriving DecidableEq, Repr

namespace Decimal

def fraction (d : Decimal) : Nat × Nat := scaled 10 d.digits d.exponent

/-- Whether rounding the decimal gives the number with this code. -/
def readsBack (d : Decimal) (code : Nat) : Bool :=
  let (num, den) := d.fraction
  nearestCode num den == code

/-- Moves up to `fuel` trailing zeros into the exponent. -/
def stripZeros : Nat → Decimal → Decimal
  | 0, d => d
  | fuel + 1, d =>
    if d.digits % 10 = 0 ∧ d.digits ≠ 0 then stripZeros fuel ⟨d.digits / 10, d.exponent + 1⟩ else d

end Decimal

/-- The greatest power of ten that is at most `num / den`. -/
def decimalLead (num den : Nat) : Int :=
  leadingPower 10 num den ((decimalLength num : Int) - (decimalLength den : Int))

/-- Whether `low + 1` is to be taken rather than `low` for the quotient `low + rest / bottom`. -/
def Tie.takesHigh (tie : Tie) (low rest bottom : Nat) : Bool :=
  if 2 * rest = bottom then
    match tie with
    | up => true
    | even => low % 2 == 1
  else bottom < 2 * rest

/-- The neighbour of `num / den` on the grid of multiples of `10 ^ e` that reads back; the nearer one
if both do. -/
def gridNeighbour? (tie : Tie) (code num den : Nat) (e : Int) : Option Decimal :=
  let (top, bottom) := if 0 ≤ e then (num, den * Nat.pow 10 e.toNat) else (num * Nat.pow 10 (-e).toNat, den)
  let low : Decimal := ⟨top / bottom, e⟩
  let high : Decimal := ⟨top / bottom + 1, e⟩
  match low.readsBack code, high.readsBack code with
  | true, true => some (if tie.takesHigh (top / bottom) (top % bottom) bottom then high else low)
  | true, false => some low
  | false, true => some high
  | false, false => none

/-- The exact decimal expansion of a finite number's size. -/
def exactDecimal (code : Nat) : Decimal :=
  let q := exponent code
  if 0 ≤ q then ⟨mantissa code * Nat.pow 2 q.toNat, 0⟩ else ⟨mantissa code * Nat.pow 5 (-q).toNat, q⟩

/-- The shortest decimal for a finite number other than zero. -/
def shortest (tie : Tie) (code : Nat) : Decimal :=
  let (num, den) := fraction code
  let lead := decimalLead num den
  let found := (List.range 17).findSome? fun (n : Nat) => gridNeighbour? tie code num den (lead - (n : Int))
  (found.getD (exactDecimal code)).stripZeros 800

end Clausal.Binary64
