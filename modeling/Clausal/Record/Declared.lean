import Clausal.Record.Mapper

/-!
# Declared records

A record with typed fields is declared by the types of its fields, each a scalar that may be optional. The
declaration gives the entity, and the conversions between typed records and lists of values. A number of
32 bits is refused when it does not fit.
-/

namespace Clausal

/-- The type of a typed value. -/
inductive Scalar where
  | bool
  | int32
  | int64
  | float
  | text
  | bytes
  | date
  | timestamp
  | key
  deriving DecidableEq, Repr

namespace Scalar

/-- The values of a type. -/
def Carrier : Scalar → Type
  | bool => Bool
  | int32 => Int32
  | int64 => Int64
  | float => Binary64
  | text => String
  | bytes => List UInt8
  | date => Date
  | timestamp => Timestamp
  | key => Key

def logicalType : Scalar → LogicalType
  | bool => .bool
  | int32 => .int
  | int64 => .long
  | float => .float
  | text => .text
  | bytes => .bytes
  | date => .date
  | timestamp => .timestamp
  | key => .key

/-- The value that a typed value is. -/
def toValue : (s : Scalar) → s.Carrier → Value
  | bool, b => .bool b
  | int32, i => .int (Int32.toInt64 i)
  | int64, i => .int i
  | float, x => .float x
  | text, s => .text s
  | bytes, bs => .bytes bs
  | date, d => .date d
  | timestamp, t => .timestamp t
  | key, k => .key k

def narrow (i : Int64) : Except Error Int32 :=
  if i.toInt < -0x80000000 then .error (.conversion .int .tooSmall)
  else if 0x80000000 ≤ i.toInt then .error (.conversion .int .tooLarge)
  else .ok i.toInt32

def ofValue : (s : Scalar) → Value → Except Error s.Carrier
  | bool, .bool b => .ok b
  | int32, .int i => narrow i
  | int64, .int i => .ok i
  | float, .float x => .ok x
  | text, .text s => .ok s
  | bytes, .bytes bs => .ok bs
  | date, .date d => .ok d
  | timestamp, .timestamp t => .ok t
  | key, .key k => .ok k
  | s, v => .error (.conversion s.logicalType (.mismatch s.logicalType v.kind))

end Scalar

/-- A scalar, or a scalar that may be absent. -/
structure FieldType where
  scalar : Scalar
  optional : Bool
  deriving DecidableEq, Repr

namespace FieldType

def Carrier (t : FieldType) : Type := if t.optional then Option t.scalar.Carrier else t.scalar.Carrier

def toValue : (t : FieldType) → t.Carrier → Value
  | ⟨s, false⟩, x => s.toValue x
  | ⟨_, true⟩, none => .null
  | ⟨s, true⟩, some x => s.toValue x

def ofValue : (t : FieldType) → Value → Except Error t.Carrier
  | ⟨s, false⟩, v => s.ofValue v
  | ⟨_, true⟩, .null => .ok none
  | ⟨s, true⟩, v => (s.ofValue v).map some

end FieldType

structure DeclaredField where
  name : String
  type : FieldType
  key : Bool
  column : Option String
  /-- The named type as which the field is mapped, instead of its own. -/
  mappedAs : Option String

/-- The field of the entity. A field of the key is never null, even if its values may be absent. -/
def DeclaredField.field (f : DeclaredField) : Field :=
  { name := f.name
    type := (f.mappedAs.map .named).getD f.type.scalar.logicalType
    nullable := f.type.optional && !f.key
    key := f.key
    column := f.column }

structure Declaration where
  name : String
  table : Option String
  fields : List DeclaredField

namespace Declaration

def Carriers : List DeclaredField → Type
  | [] => Unit
  | f :: fs => f.type.Carrier × Carriers fs

def Record (d : Declaration) : Type := Carriers d.fields

def entity (d : Declaration) : Entity := ⟨d.name, d.table, d.fields.map DeclaredField.field⟩

def valuesOf : (fs : List DeclaredField) → Carriers fs → List Value
  | [], () => []
  | f :: fs, (x, xs) => f.type.toValue x :: valuesOf fs xs

def toValues (d : Declaration) (x : d.Record) : List Value := valuesOf d.fields x

/-- The typed values of as many fields as there are values. -/
def carriers : (fs : List DeclaredField) → List Value → Except Error (Carriers fs)
  | [], _ => .ok ()
  | f :: fs, vs => do
    let x ← f.type.ofValue (vs.headD .null)
    let xs ← carriers fs vs.tail
    pure (x, xs)

def ofValues (d : Declaration) (vs : List Value) : Except RecordError d.Record :=
  if vs.length = d.fields.length then carriers d.fields vs
  else .error (.invalid d.name (.count d.fields.length vs.length))

def mapper (d : Declaration) (s : Storage) : Except Error RecordMapper :=
  RecordMapper.ofEntity s d.entity

/-- Equality of records, as numbers where they hold floating-point numbers. -/
def equal (d : Declaration) (x y : d.Record) : Bool := d.toValues x == d.toValues y

end Declaration

end Clausal
