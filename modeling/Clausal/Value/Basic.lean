import Clausal.Binary64.Basic
import Clausal.Calendar.Timestamp

/-!
# Values

The values that records hold and columns store. Equality is that of numbers for floating-point
components, so it is not reflexive at NaN.
-/

namespace Clausal

/-- An identifier and, if the row has been stored, its revision. -/
structure Key where
  id : Int64
  revision : Option Int64
  deriving DecidableEq, Repr

inductive Value where
  | null
  | bool (b : Bool)
  | int (i : Int64)
  | float (x : Binary64)
  | text (s : String)
  | bytes (bs : List UInt8)
  | date (d : Date)
  | timestamp (t : Timestamp)
  | key (k : Key)
  /-- The components of a composite value, in order. -/
  | record (parts : List Value)
  deriving Repr

namespace Value

inductive Kind where
  | null
  | bool
  | int
  | float
  | text
  | bytes
  | date
  | timestamp
  | key
  | record
  deriving DecidableEq, Repr

def Kind.name : Kind → String
  | null => "null"
  | bool => "bool"
  | int => "int"
  | float => "float"
  | text => "text"
  | bytes => "bytes"
  | date => "date"
  | timestamp => "timestamp"
  | key => "key"
  | record => "record"

def kind : Value → Kind
  | .null => .null
  | .bool _ => .bool
  | .int _ => .int
  | .float _ => .float
  | .text _ => .text
  | .bytes _ => .bytes
  | .date _ => .date
  | .timestamp _ => .timestamp
  | .key _ => .key
  | .record _ => .record

def isNull : Value → Bool
  | .null => true
  | _ => false

mutual

/-- Equality of values, as numbers where they are floating-point numbers. -/
def equal : Value → Value → Bool
  | .null, .null => true
  | .bool a, .bool b => a == b
  | .int a, .int b => a == b
  | .float a, .float b => a == b
  | .text a, .text b => a == b
  | .bytes a, .bytes b => a == b
  | .date a, .date b => a == b
  | .timestamp a, .timestamp b => a == b
  | .key a, .key b => a == b
  | .record as, .record bs => equalAll as bs
  | _, _ => false

def equalAll : List Value → List Value → Bool
  | [], [] => true
  | a :: as, b :: bs => equal a b && equalAll as bs
  | _, _ => false

end

instance : BEq Value := ⟨equal⟩

end Value

end Clausal
