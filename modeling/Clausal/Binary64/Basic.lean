/-!
# Binary floating point of 64 bits

A number of the interchange format binary64, as its sign and the other 63 bits: the exponent field of
eleven bits above the fraction field of fifty-two. Everything is exact arithmetic on natural numbers.
As codes of finite numbers grow with the numbers, rounding a fraction to the nearest number needs no
case for a carry into the next exponent: the carry is the next code.
-/

namespace Clausal

structure Binary64 where
  negative : Bool
  /-- The exponent field and, below it, the fraction field. -/
  code : Fin 0x8000000000000000
  deriving DecidableEq, Repr

namespace Binary64

/-- The number of fractions that share an exponent. -/
def fractions : Nat := 0x10000000000000

/-- The code of infinity: all exponent bits are set and no fraction bit is. -/
def infinityCode : Nat := 0x7ff0000000000000

/-- Whether the number is neither infinite nor NaN. -/
def isFinite (x : Binary64) : Bool := x.code.val < infinityCode

def isNaN (x : Binary64) : Bool := infinityCode < x.code.val

/-- Zero of either sign. -/
def isZero (x : Binary64) : Bool := x.code.val == 0

/-- The number with a code; a code beyond that of infinity counts as infinity. -/
def ofCode (negative : Bool) (code : Nat) : Binary64 :=
  if h : code < infinityCode then
    ⟨negative, ⟨code, Nat.lt_trans h (by decide)⟩⟩
  else
    ⟨negative, ⟨infinityCode, by decide⟩⟩

def infinity (negative : Bool) : Binary64 := ofCode negative infinityCode

def nan : Binary64 := ⟨false, ⟨infinityCode + 0x8000000000000, by decide⟩⟩

def neg (x : Binary64) : Binary64 := { x with negative := !x.negative }

/-- Equality as numbers: both zeros are equal, and NaN equals nothing. -/
def equal (x y : Binary64) : Bool :=
  !x.isNaN && !y.isNaN && (decide (x = y) || (x.isZero && y.isZero))

/-- The whole number `m` of the size `m * 2 ^ q` of a finite number. -/
def mantissa (code : Nat) : Nat :=
  if code / fractions = 0 then code % fractions else fractions + code % fractions

/-- The power `q` of the size `m * 2 ^ q` of a finite number. -/
def exponent (code : Nat) : Int :=
  if code / fractions = 0 then -1074 else (code / fractions : Nat) - 1075

/-- The fraction `m * base ^ e` as numerator and denominator. -/
def scaled (base m : Nat) (e : Int) : Nat × Nat :=
  if 0 ≤ e then (m * base.pow e.toNat, 1) else (m, base.pow (-e).toNat)

/-- The size of a finite number as numerator and denominator. -/
def fraction (code : Nat) : Nat × Nat := scaled 2 (mantissa code) (exponent code)

/-- The quotient rounded to the nearest whole number, a half to the even neighbour. -/
def roundedQuotient (num den : Nat) : Nat :=
  let low := num / den
  let twice := 2 * (num % den)
  if twice < den then low
  else if den < twice then low + 1
  else if low % 2 = 0 then low else low + 1

/-- The greatest `l` with `base ^ l ≤ num / den`, if `guess` is that or one more. -/
def leadingPower (base num den : Nat) (guess : Int) : Int :=
  let (n, d) := scaled base den guess
  if n ≤ num * d then guess else guess - 1

/-- The greatest power of two that is at most `num / den`. -/
def binaryLead (num den : Nat) : Int :=
  leadingPower 2 num den ((num.log2 : Int) - (den.log2 : Int))

/-- The code of the number nearest to `num / den`, a tie to the even code. -/
def nearestCode (num den : Nat) : Nat :=
  if num = 0 then 0
  else
    let q := max (-1074) (binaryLead num den - 52)
    let m := if 0 ≤ q then roundedQuotient num (den * Nat.pow 2 q.toNat)
      else roundedQuotient (num * Nat.pow 2 (-q).toNat) den
    min infinityCode ((q + 1074).toNat * fractions + m)

def decimalLength (n : Nat) : Nat := (Nat.toDigits 10 n).length

/-- The number nearest to `digits * 10 ^ e`. Beyond 10^310 everything is infinite and below 10^-330
everything is zero, so the power is never computed for an exponent far outside the range. -/
def ofDecimal (negative : Bool) (digits : Nat) (e : Int) : Binary64 :=
  if digits = 0 then ofCode negative 0
  else
    let size := (decimalLength digits : Int) + e
    if 310 < size then infinity negative
    else if size < -330 then ofCode negative 0
    else
      let (num, den) := scaled 10 digits e
      ofCode negative (nearestCode num den)

def ofInt (i : Int) : Binary64 := ofDecimal (i < 0) i.natAbs 0

instance : BEq Binary64 := ⟨equal⟩

end Binary64

end Clausal
