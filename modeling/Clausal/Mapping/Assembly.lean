import Clausal.Error

/-!
# Assembling values

A value that is stored in several columns is put together from its parts, one after the other. An
identifier is made of its number and its revision; a composite of one value for each component. A part
may be given again, and then the last one counts.
-/

namespace Clausal

/-- A value that is being put together. -/
inductive Assembly where
  | key (id : Option Value) (revision : Option Int64)
  | composite (type : LogicalType) (parts : List (String × Option Value))

namespace Assembly

def emptyKey : Assembly := key none none

def emptyComposite (type : LogicalType) (components : List String) : Assembly :=
  composite type (components.map fun name => (name, none))

/-- Sets the first component with a name. -/
def setPart (name : String) (value : Value) :
    List (String × Option Value) → Option (List (String × Option Value))
  | [] => none
  | (n, v) :: rest =>
    if n = name then some ((n, some value) :: rest)
    else (setPart name value rest).map ((n, v) :: ·)

def put (a : Assembly) (part : String) (value : Value) : Except Error Assembly :=
  match a with
  | key id revision =>
    if part = "id" ∧ (value.kind = .int ∨ value.kind = .null) then .ok (key (some value) revision)
    else
      match part, value with
      | "revision", .int i => .ok (key id (some i))
      | "revision", .null => .ok (key id none)
      | _, _ => .error (.assembly .key (.unexpectedPart value.kind part))
  | composite type parts =>
    match setPart part value parts with
    | some parts => .ok (composite type parts)
    | none => .error (.assembly type (.unknownComponent part))

def partValues (type : LogicalType) : List (String × Option Value) → Except Error (List Value)
  | [] => .ok []
  | (name, none) :: _ => .error (.assembly type (.missingComponent name))
  | (_, some v) :: rest =>
    match partValues type rest with
    | .ok vs => .ok (v :: vs)
    | .error e => .error e

/-- The value that the parts make. It is null if the number of an identifier is, or if all components of
a composite are. -/
def build : Assembly → Except Error Value
  | key (some (.int id)) revision => .ok (.key ⟨id, revision⟩)
  | key (some _) _ => .ok .null
  | key none _ => .error (.assembly .key .missingId)
  | composite type parts =>
    match partValues type parts with
    | .ok vs => .ok (if vs.all Value.isNull then .null else .record vs)
    | .error e => .error e

end Assembly

end Clausal
