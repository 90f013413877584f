import Clausal.Json.Basic

/-!
# JSON text

The compact text of a JSON tree: no space between tokens, the fields of an object in their order, and
every character as itself unless it must be escaped. A number that is not finite has no JSON form and
is written as null.
-/

namespace Clausal.Json

/-- The digit of a hexadecimal value below sixteen, in lower case. -/
def smallHexDigit (n : Nat) : Char :=
  if n < 10 then Char.ofNat ('0'.toNat + n) else Char.ofNat ('a'.toNat + (n - 10))

/-- One character as it stands inside a string. -/
def escaped (c : Char) : List Char :=
  if c = '"' then ['\\', '"']
  else if c = '\\' then ['\\', '\\']
  else if c = '\x08' then ['\\', 'b']
  else if c = '\x0c' then ['\\', 'f']
  else if c = '\n' then ['\\', 'n']
  else if c = '\r' then ['\\', 'r']
  else if c = '\t' then ['\\', 't']
  else if c.toNat < 32 then
    ['\\', 'u', '0', '0', smallHexDigit (c.toNat / 16), smallHexDigit (c.toNat % 16)]
  else [c]

def quotedText (s : String) : String :=
  String.ofList ('"' :: (s.toList.flatMap escaped ++ ['"']))

def floatText (x : Binary64) : String :=
  if x.isFinite then x.text .json else "null"

mutual

/-- The compact text of a tree. -/
def text : Json → String
  | null => "null"
  | bool true => "true"
  | bool false => "false"
  | int i => toString i
  | float x => floatText x
  | string s => quotedText s
  | array items => "[" ++ itemsText items ++ "]"
  | object fields => "\x7b" ++ fieldsText fields ++ "\x7d"

def itemsText : List Json → String
  | [] => ""
  | [x] => text x
  | x :: y :: rest => text x ++ "," ++ itemsText (y :: rest)

def fieldsText : List (String × Json) → String
  | [] => ""
  | [(key, x)] => quotedText key ++ ":" ++ text x
  | (key, x) :: f :: rest => quotedText key ++ ":" ++ text x ++ "," ++ fieldsText (f :: rest)

end

end Clausal.Json
