import Clausal.Json.Basic

/-!
# Shapes of JSON trees

How data of the common shapes are read from JSON trees and written as such. A record is an object, in
which fields that are not known do not matter, or the list of its values. A field may be required, or
optional, so that it may be left out or be null, or it has a default when it is left out. A variant is
an object of one field, whose name is the tag; a variant without data may also be the tag alone. How much
may stand for no data depends on how strictly a form is read.
-/

namespace Clausal.Json

def asBool? : Json → Option Bool
  | bool b => some b
  | _ => none

def asString? : Json → Option String
  | string s => some s
  | _ => none

/-- A whole number below a bound. -/
def asNat? (bound : Nat) : Json → Option Nat
  | int i => if 0 ≤ i ∧ i < bound then some i.toNat else none
  | _ => none

def asByte? (j : Json) : Option UInt8 := (j.asNat? UInt8.size).map UInt8.ofNat

def asUInt16? (j : Json) : Option UInt16 := (j.asNat? UInt16.size).map UInt16.ofNat

def asUInt32? (j : Json) : Option UInt32 := (j.asNat? UInt32.size).map UInt32.ofNat

def asUInt64? (j : Json) : Option UInt64 := (j.asNat? UInt64.size).map UInt64.ofNat

def asInt64? : Json → Option Int64
  | int i => if -0x8000000000000000 ≤ i ∧ i < 0x8000000000000000 then some (Int64.ofInt i) else none
  | _ => none

/-- A floating-point number, which may be written as a whole number. -/
def asFloat? : Json → Option Binary64
  | float x => some x
  | int i => some (Binary64.ofInt i)
  | _ => none

def asItems? : Json → Option (List Json)
  | array items => some items
  | _ => none

/-- The fields of a record whose fields are declared in an order. The record may also be the list of its
values in that order, without some of the last ones. -/
def asRecord? (order : List String) : Json → Option (List (String × Json))
  | object fields => some fields
  | array values => if values.length ≤ order.length then some (order.zip values) else none
  | _ => none

def asList? {α : Type} (item : Json → Option α) : Json → Option (List α)
  | array items => items.mapM item
  | _ => none

/-- Anything but null, or nothing. -/
def asOption? {α : Type} (some? : Json → Option α) : Json → Option (Option α)
  | null => some none
  | j => (some? j).map some

def required {α : Type} (fields : List (String × Json)) (name : String) (value : Json → Option α) :
    Option α :=
  (lookup name fields).bind value

/-- A field that may be left out. -/
def withDefault {α : Type} (fields : List (String × Json)) (name : String) (default : α)
    (value : Json → Option α) : Option α :=
  match lookup name fields with
  | none => some default
  | some j => value j

/-- A field that may be left out or null. -/
def optional {α : Type} (fields : List (String × Json)) (name : String) (value : Json → Option α) :
    Option (Option α) :=
  withDefault fields name none (asOption? value)

/-- The tag and the data of a variant. -/
def variant? : Json → Option (String × Option Json)
  | string tag => some (tag, none)
  | object [(tag, data)] => some (tag, some data)
  | _ => none

/-- How a form is read: strictly, so that only null may stand for the data of a variant that has none,
or leniently, so that an object without fields may do so too. -/
inductive Reading where
  | strict
  | lenient
  deriving DecidableEq, Repr

/-- Whether the data of a variant stand for no data. -/
def Reading.isBare : Reading → Option Json → Bool
  | _, none | _, some null | lenient, some (object []) => true
  | _, _ => false

/-- The variant of a list of variants without data. -/
def asTag? {α : Type} (how : Reading) (tags : List (String × α)) (j : Json) : Option α := do
  let (tag, data) ← j.variant?
  if how.isBare data then (tags.find? fun t => t.1 == tag).map (·.2) else none

def tagged (tag : String) (data : Json) : Json := object [(tag, data)]

def strings (ss : List String) : Json := array (ss.map string)

def ofInt64 (i : Int64) : Json := int i.toInt

def ofNat (n : Nat) : Json := int n

/-- A field that is left out when there is no value. -/
def fieldIf {α : Type} (name : String) (value : α → Json) : Option α → List (String × Json)
  | none => []
  | some x => [(name, value x)]

def ofOption {α : Type} (value : α → Json) : Option α → Json
  | none => null
  | some x => value x

end Clausal.Json
