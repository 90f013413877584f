import Clausal.Calendar.Digits

/-!
# Calendar dates

Dates of the proleptic Gregorian calendar, in a range of some half a million years. A date is written
as year, month and day; a year beyond four digits, or before the year zero, carries its sign.
-/

namespace Clausal

namespace Calendar

def isLeap (year : Int) : Bool :=
  year % 4 == 0 && (year % 100 != 0 || year % 400 == 0)

def daysIn (year : Int) (month : Nat) : Nat :=
  if month = 2 then (if isLeap year then 29 else 28)
  else if month = 4 ∨ month = 6 ∨ month = 9 ∨ month = 11 then 30
  else 31

def isDate (year : Int) (month day : Nat) : Bool :=
  decide (-262143 ≤ year ∧ year ≤ 262142 ∧ 1 ≤ month ∧ month ≤ 12 ∧ 1 ≤ day ∧
    day ≤ daysIn year month)

end Calendar

structure Date where
  year : Int
  month : Nat
  day : Nat
  valid : Calendar.isDate year month day = true
  deriving DecidableEq, Repr

namespace Date

open Calendar

def of? (year : Int) (month day : Nat) : Option Date :=
  if h : isDate year month day = true then some ⟨year, month, day, h⟩ else none

def yearText (year : Int) : List Char :=
  if 0 ≤ year ∧ year < 10000 then padded 4 year.natAbs
  else (if year < 0 then '-' else '+') :: padded 4 year.natAbs

def chars (d : Date) : List Char :=
  yearText d.year ++ '-' :: padded 2 d.month ++ '-' :: padded 2 d.day

def text (d : Date) : String := String.ofList d.chars

/-- Reads a year: four digits at most, or any number of them after a sign. -/
def year? : List Char → Option (Int × List Char)
  | '-' :: rest => (field? rest.length rest).map fun (n, rest) => (-(n : Int), rest)
  | '+' :: rest => (field? rest.length rest).map fun (n, rest) => ((n : Int), rest)
  | cs => (field? 4 cs).map fun (n, rest) => ((n : Int), rest)

def read? (cs : List Char) : Option (Date × List Char) := do
  let (year, cs) ← year? cs
  let cs ← mark? '-' cs
  let (month, cs) ← field? 2 cs
  let cs ← mark? '-' cs
  let (day, cs) ← field? 2 cs
  let date ← of? year month day
  pure (date, cs)

def ofText? (s : String) : Option Date :=
  match read? s.toList with
  | some (d, []) => some d
  | _ => none

end Date

end Clausal
