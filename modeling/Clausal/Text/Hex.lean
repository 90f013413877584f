/-!
# Hexadecimal digits

One byte is two hexadecimal digits. They are written as capitals, and read in either case. A pair may
also be a plus sign and one digit, which is that digit's value.
-/

namespace Clausal.Text

/-- The value of a hexadecimal digit of either case. -/
def hexDigit? (c : Char) : Option Nat :=
  if '0' ≤ c ∧ c ≤ '9' then some (c.toNat - '0'.toNat)
  else if 'a' ≤ c ∧ c ≤ 'f' then some (c.toNat - 'a'.toNat + 10)
  else if 'A' ≤ c ∧ c ≤ 'F' then some (c.toNat - 'A'.toNat + 10)
  else none

/-- The capital hexadecimal digit of a value below sixteen. -/
def hexDigit (n : Nat) : Char :=
  if n < 10 then Char.ofNat ('0'.toNat + n) else Char.ofNat ('A'.toNat + (n - 10))

/-- The byte that a pair of characters spells. -/
def byteOfPair? (high low : Char) : Option UInt8 := do
  let l ← hexDigit? low
  if high = '+' then pure (UInt8.ofNat l)
  else
    let h ← hexDigit? high
    pure (UInt8.ofNat (16 * h + l))

def bytesOfPairs? : List Char → Option (List UInt8)
  | [] => some []
  | [_] => none
  | high :: low :: rest => do
    let b ← byteOfPair? high low
    let bs ← bytesOfPairs? rest
    pure (b :: bs)

def pairOfByte (b : UInt8) : List Char := [hexDigit (b.toNat / 16), hexDigit (b.toNat % 16)]

def pairsOfBytes (bs : List UInt8) : List Char := bs.flatMap pairOfByte

end Clausal.Text
