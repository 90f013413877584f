/-!
# Logical types

What a field means to its user, without regard to how it is stored.
-/

namespace Clausal

inductive LogicalType where
  | bool
  /-- Whole numbers of 32 bits. -/
  | int
  /-- Whole numbers of 64 bits. -/
  | long
  | float
  | text
  | bytes
  | date
  | timestamp
  /-- An identifier with a revision. -/
  | key
  /-- A type that its user defines. -/
  | named (name : String)
  deriving DecidableEq, Repr

def LogicalType.name : LogicalType → String
  | bool => "bool"
  | int => "int"
  | long => "long"
  | float => "float"
  | text => "text"
  | bytes => "bytes"
  | date => "date"
  | timestamp => "timestamp"
  | key => "key"
  | named name => name

end Clausal
