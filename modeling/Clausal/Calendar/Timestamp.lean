import Clausal.Calendar.Date

/-!
# Timestamps

A date with a time of day, to the nanosecond and without a zone. The second 60 is a leap second, which
any minute may have. The fraction is written in as few groups of three digits as are exact, and left
out if it is zero.
-/

namespace Clausal

namespace Calendar

def isTime (hour minute second nano : Nat) : Bool :=
  decide (hour < 24 ∧ minute < 60 ∧ second ≤ 60 ∧ nano < 1000000000)

/-- The fraction of a second as text, with its point. -/
def fractionText (nano : Nat) : List Char :=
  if nano = 0 then []
  else if nano % 1000000 = 0 then '.' :: padded 3 (nano / 1000000)
  else if nano % 1000 = 0 then '.' :: padded 6 (nano / 1000)
  else '.' :: padded 9 nano

/-- Reads the fraction of a second, if there is one. Digits after the ninth are passed over. -/
def fraction? : List Char → Option (Nat × List Char)
  | '.' :: rest =>
    let digits := rest.takeWhile Char.isDigit
    if digits.isEmpty then none
    else
      let used := digits.take 9
      some (Nat.ofDigitChars 10 used 0 * Nat.pow 10 (9 - used.length), rest.drop digits.length)
  | cs => some (0, cs)

end Calendar

structure Timestamp where
  date : Date
  hour : Nat
  minute : Nat
  second : Nat
  nano : Nat
  valid : Calendar.isTime hour minute second nano = true
  deriving DecidableEq, Repr

namespace Timestamp

open Calendar

def of? (date : Date) (hour minute second nano : Nat) : Option Timestamp :=
  if h : isTime hour minute second nano = true then some ⟨date, hour, minute, second, nano, h⟩
  else none

def chars (t : Timestamp) : List Char :=
  t.date.chars ++ 'T' :: padded 2 t.hour ++ ':' :: padded 2 t.minute ++ ':' :: padded 2 t.second
    ++ fractionText t.nano

def text (t : Timestamp) : String := String.ofList t.chars

def read? (cs : List Char) : Option (Timestamp × List Char) := do
  let (date, cs) ← Date.read? cs
  let cs ← mark? 'T' cs
  let (hour, cs) ← field? 2 cs
  let cs ← mark? ':' cs
  let (minute, cs) ← field? 2 cs
  let cs ← mark? ':' cs
  let (second, cs) ← field? 2 cs
  let (nano, cs) ← fraction? cs
  let stamp ← of? date hour minute second nano
  pure (stamp, cs)

def ofText? (s : String) : Option Timestamp :=
  match read? s.toList with
  | some (t, []) => some t
  | _ => none

end Timestamp

end Clausal
