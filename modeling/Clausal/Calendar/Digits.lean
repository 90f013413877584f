/-!
# Fields of digits

Reading and writing the decimal fields of which dates and times are made.
-/

namespace Clausal.Calendar

/-- A number in at least `places` digits. -/
def padded (places n : Nat) : List Char :=
  let digits := Nat.toDigits 10 n
  List.replicate (places - digits.length) '0' ++ digits

/-- Reads a field of at least one digit and at most `most`, and gives the rest. -/
def field? (most : Nat) (cs : List Char) : Option (Nat × List Char) :=
  let digits := (cs.take most).takeWhile Char.isDigit
  if digits.isEmpty then none
  else some (Nat.ofDigitChars 10 digits 0, cs.drop digits.length)

/-- Reads one given character, and gives the rest. -/
def mark? (c : Char) : List Char → Option (List Char)
  | [] => none
  | d :: rest => if d = c then some rest else none

end Clausal.Calendar
