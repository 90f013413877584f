import Clausal.Json.Basic

/-!
# Reading JSON

The tree that a JSON text stands for. A number without fraction and exponent that fits 64 bits, with a
sign or without, is a whole number. Any other, negative zero among them, is rounded to the nearest
floating-point number and refused if it is beyond all of them. Each level of nesting and each item costs
the reader at most two units of fuel, so twice as much fuel as there are characters is always enough.
-/

namespace Clausal.Json

def skipBlanks (cs : List Char) : List Char :=
  cs.dropWhile fun c => c = ' ' ∨ c = '\t' ∨ c = '\n' ∨ c = '\r'

def hexValue? (c : Char) : Option Nat :=
  if c.isDigit then some (c.toNat - '0'.toNat)
  else if 'a' ≤ c ∧ c ≤ 'f' then some (c.toNat - 'a'.toNat + 10)
  else if 'A' ≤ c ∧ c ≤ 'F' then some (c.toNat - 'A'.toNat + 10)
  else none

/-- The code that a one-letter escape stands for. -/
def escapeCode? (c : Char) : Option Nat :=
  match c with
  | '"' => some 34
  | '\\' => some 92
  | '/' => some 47
  | 'b' => some 8
  | 'f' => some 12
  | 'n' => some 10
  | 'r' => some 13
  | 't' => some 9
  | _ => none

/-- The codes of a string up to its closing quote, and the rest. A code may be half of a surrogate
pair. -/
def codes? : List Char → Option (List Nat × List Char)
  | [] => none
  | '"' :: rest => some ([], rest)
  | '\\' :: 'u' :: a :: b :: c :: d :: rest => do
    let code := (((← hexValue? a) * 16 + (← hexValue? b)) * 16 + (← hexValue? c)) * 16
      + (← hexValue? d)
    let (more, rest) ← codes? rest
    pure (code :: more, rest)
  | '\\' :: c :: rest => do
    let code ← escapeCode? c
    let (more, rest) ← codes? rest
    pure (code :: more, rest)
  | c :: rest => do
    if c.toNat < 32 then none
    let (more, rest) ← codes? rest
    pure (c.toNat :: more, rest)

/-- Puts surrogate pairs together; a half that stands alone is refused. -/
def chars? : List Nat → Option (List Char)
  | [] => some []
  | [code] => if 0xd800 ≤ code ∧ code < 0xe000 then none else some [Char.ofNat code]
  | code :: next :: rest =>
    if 0xd800 ≤ code ∧ code < 0xdc00 then
      if 0xdc00 ≤ next ∧ next < 0xe000 then
        (chars? rest).map (Char.ofNat (0x10000 + (code - 0xd800) * 0x400 + (next - 0xdc00)) :: ·)
      else none
    else if 0xdc00 ≤ code ∧ code < 0xe000 then none
    else (chars? (next :: rest)).map (Char.ofNat code :: ·)

/-- A string after its opening quote, and the rest. -/
def string? (cs : List Char) : Option (String × List Char) := do
  let (codes, rest) ← codes? cs
  let text ← chars? codes
  pure (String.ofList text, rest)

/-- The digits at the front, of which there must be one, and the rest. -/
def digits? (cs : List Char) : Option (List Char × List Char) :=
  let digits := cs.takeWhile Char.isDigit
  if digits.isEmpty then none else some (digits, cs.drop digits.length)

def exponent? (cs : List Char) : Option (Int × List Char) :=
  let (negative, cs) := match cs with
    | '-' :: rest => (true, rest)
    | '+' :: rest => (false, rest)
    | _ => (false, cs)
  (digits? cs).map fun (digits, rest) =>
    let n := Nat.ofDigitChars 10 digits 0
    (if negative then -(n : Int) else n, rest)

/-- The floating-point number nearest to `digits * 10 ^ e`, if there is a finite one. -/
def rounded? (negative : Bool) (digits : Nat) (e : Int) : Option Json :=
  let x := Binary64.ofDecimal negative digits e
  if x.isFinite then some (.float x) else none

/-- A number without fraction and exponent. -/
def whole? (negative : Bool) (n : Nat) : Option Json :=
  if negative then
    if 0 < n ∧ n ≤ 0x8000000000000000 then some (.int (-n)) else rounded? negative n 0
  else if n < 0x10000000000000000 then some (.int n)
  else rounded? negative n 0

def number? (cs : List Char) : Option (Json × List Char) := do
  let (negative, cs) := match cs with
    | '-' :: rest => (true, rest)
    | _ => (false, cs)
  let (whole, cs) ← digits? cs
  if 1 < whole.length ∧ whole.head? = some '0' then none
  let (fraction, cs) ← match cs with
    | '.' :: rest => (digits? rest).map fun (digits, rest) => (some digits, rest)
    | _ => some (none, cs)
  let (exponent, cs) ← match cs with
    | 'e' :: rest => (exponent? rest).map fun (e, rest) => (some e, rest)
    | 'E' :: rest => (exponent? rest).map fun (e, rest) => (some e, rest)
    | _ => some (none, cs)
  let number ← match fraction, exponent with
    | none, none => whole? negative (Nat.ofDigitChars 10 whole 0)
    | _, _ =>
      let places := fraction.getD []
      rounded? negative (Nat.ofDigitChars 10 (whole ++ places) 0) (exponent.getD 0 - places.length)
  pure (number, cs)

/-- Leaves out a given word at the front. -/
def word? : List Char → List Char → Option (List Char)
  | [], cs => some cs
  | _ :: _, [] => none
  | w :: ws, c :: cs => if w = c then word? ws cs else none

mutual

def value? : Nat → List Char → Option (Json × List Char)
  | 0, _ => none
  | fuel + 1, cs =>
    match skipBlanks cs with
    | [] => none
    | '[' :: rest =>
      match skipBlanks rest with
      | ']' :: rest => some (.array [], rest)
      | rest => (items? fuel rest).map fun (items, rest) => (.array items, rest)
    | '\x7b' :: rest =>
      match skipBlanks rest with
      | '\x7d' :: rest => some (.object [], rest)
      | rest => (fields? fuel rest).map fun (fields, rest) => (.object fields, rest)
    | '"' :: rest => (string? rest).map fun (s, rest) => (.string s, rest)
    | 'n' :: rest => (word? "ull".toList rest).map fun rest => (.null, rest)
    | 't' :: rest => (word? "rue".toList rest).map fun rest => (.bool true, rest)
    | 'f' :: rest => (word? "alse".toList rest).map fun rest => (.bool false, rest)
    | cs => number? cs

def items? : Nat → List Char → Option (List Json × List Char)
  | 0, _ => none
  | fuel + 1, cs => do
    let (item, cs) ← value? fuel cs
    match skipBlanks cs with
    | ',' :: rest =>
      let (items, rest) ← items? fuel rest
      pure (item :: items, rest)
    | ']' :: rest => pure ([item], rest)
    | _ => none

def fields? : Nat → List Char → Option (List (String × Json) × List Char)
  | 0, _ => none
  | fuel + 1, cs => do
    let (name, cs) ← match skipBlanks cs with
      | '"' :: rest => string? rest
      | _ => none
    let cs ← match skipBlanks cs with
      | ':' :: rest => some rest
      | _ => none
    let (value, cs) ← value? fuel cs
    match skipBlanks cs with
    | ',' :: rest =>
      let (fields, rest) ← fields? fuel rest
      pure ((name, value) :: fields, rest)
    | '\x7d' :: rest => pure ([(name, value)], rest)
    | _ => none

end

def ofText? (s : String) : Option Json :=
  let cs := s.toList
  match value? (2 * cs.length + 2) cs with
  | some (j, rest) => if (skipBlanks rest).isEmpty then some j else none
  | none => none

end Clausal.Json
