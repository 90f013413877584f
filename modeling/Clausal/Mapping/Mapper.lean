import Clausal.Mapping.Assembly
import Clausal.Schema.ColumnType

/-!
# Mappers

A mapper says how the values of a logical type are stored. It is a chain of links, each of which makes
one value for storage out of the value: for a column of its own, or for another logical type that is
mapped in its turn. The first link also says how a value that is spread over the chain is put together
again.
-/

namespace Clausal

/-- What a link makes values for. -/
inductive Target where
  | column (type : ColumnType)
  | logical (type : LogicalType)
  deriving DecidableEq, Repr

/-- One of the values into which a value is taken apart for storage. -/
structure Link where
  source : LogicalType
  target : Target
  /-- The name for storage, from the name of the field's column. -/
  columnName : String → String
  /-- The stored form of a value that is not null. -/
  toTarget : Value → Except Error Value
  /-- The value of a stored form that is not null, where the chain has one link only. -/
  fromTarget : Value → Except Error Value
  /-- The stored form of null. -/
  nullTarget : Value
  part : String
  /-- The value without parts, where values can be put together. -/
  assembly : Option Assembly

structure Mapper where
  first : Link
  siblings : List Link

namespace Mapper

def links (m : Mapper) : List Link := m.first :: m.siblings

def source (m : Mapper) : LogicalType := m.first.source

/-- Whether values of a sort belong to a type. -/
def fits : LogicalType → Value.Kind → Bool
  | .bool, .bool | .int, .int | .long, .int | .float, .float | .text, .text | .bytes, .bytes
  | .date, .date | .timestamp, .timestamp | .key, .key => true
  | .named _, _ => true
  | _, _ => false

/-- Whether a number fits 32 bits. -/
def isNarrow (i : Int64) : Bool := -0x80000000 ≤ i.toInt && i.toInt < 0x80000000

/-- Passes on a value of a type and refuses any other. -/
def accept (type : LogicalType) (v : Value) : Except Error Value :=
  if fits type v.kind then
    match type, v with
    | .int, .int i => if isNarrow i then .ok v else .error (.conversion .int (.wide i))
    | _, _ => .ok v
  else .error (.conversion type (.unexpected v.kind))

/-- Stores values of a type unchanged in one column. -/
def scalar (type : LogicalType) (column : ColumnType) : Mapper :=
  { first :=
      { source := type
        target := .column column
        columnName := id
        toTarget := accept type
        fromTarget := accept type
        nullTarget := .null
        part := "value"
        assembly := none }
    siblings := [] }

def asKey : Value → Except Error Key
  | .key k => .ok k
  | v => .error (.conversion .key (.unexpected v.kind))

def idLink : Link where
  source := .key
  target := .column .bigint
  columnName := id
  toTarget v := (asKey v).map fun k => .int k.id
  fromTarget
    | .int i => .ok (.key ⟨i, none⟩)
    | v => .error (.conversion .key (.notAnId v.kind))
  nullTarget := .null
  part := "id"
  assembly := some .emptyKey

def revisionLink : Link where
  source := .key
  target := .column .bigint
  columnName base := base ++ "_rev"
  toTarget v := (asKey v).map fun k =>
    match k.revision with
    | some r => .int r
    | none => .null
  fromTarget v := .error (.conversion .key (.revisionAlone v.kind))
  nullTarget := .null
  part := "revision"
  assembly := none

/-- Stores identifiers with or without their revisions. -/
def key (revisioned : Bool) : Mapper := ⟨idLink, if revisioned then [revisionLink] else []⟩

structure Component where
  name : String
  type : LogicalType
  deriving DecidableEq, Repr

/-- One component of a composite value. A value of which no component is there is refused, because it
could not be told from null when it is read back. -/
def component (type : LogicalType) (count index : Nat) (v : Value) : Except Error Value :=
  match v with
  | .record parts =>
    if parts.length ≠ count then .error (.conversion type (.components count parts.length))
    else if parts.all Value.isNull then .error (.conversion type .allNull)
    else .ok (parts.getD index .null)
  | v => .error (.conversion type (.unexpected v.kind))

def componentLink (type : LogicalType) (components : List Component) (index : Nat) (c : Component) :
    Link where
  source := type
  target := .logical c.type
  columnName base := base ++ "_" ++ c.name
  toTarget := component type components.length index
  fromTarget v := .ok (.record [v])
  nullTarget := .null
  part := c.name
  assembly := some (.emptyComposite type (components.map (·.name)))

/-- Stores composite values, one link for each component. -/
def composite (name : String) (components : List Component) : Except Error Mapper :=
  match components.mapIdx (componentLink (.named name) components) with
  | [] => .error (.assembly (.named name) .noComponents)
  | first :: siblings => .ok ⟨first, siblings⟩

/-- Stores values of a type as values of another, by way of two functions. -/
def convert (source target : LogicalType) (toTarget fromTarget : Value → Except Error Value) :
    Mapper :=
  { first :=
      { source := source
        target := .logical target
        columnName := id
        toTarget := toTarget
        fromTarget := fromTarget
        nullTarget := .null
        part := "value"
        assembly := none }
    siblings := [] }

end Mapper

end Clausal
