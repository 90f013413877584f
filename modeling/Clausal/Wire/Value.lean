import Clausal.Json.Shape
import Clausal.Value.Basic

/-!
# The JSON form of values

A value is the variant of its sort. Bytes are lists of numbers, dates and timestamps are strings, and an
identifier is a record whose revision is left out when it has none.
-/

namespace Clausal

open Json (required optional)

def bytesToJson (bs : List UInt8) : Json := .array (bs.map fun b => .ofNat b.toNat)

def bytesOfJson? : Json → Option (List UInt8) := Json.asList? Json.asByte?

def Key.toJson (k : Key) : Json :=
  .object ([("id", .ofInt64 k.id)] ++ Json.fieldIf "revision" .ofInt64 k.revision)

def Key.ofJson? (j : Json) : Option Key := do
  let fields ← j.asRecord? ["id", "revision"]
  let id ← required fields "id" Json.asInt64?
  let revision ← optional fields "revision" Json.asInt64?
  pure ⟨id, revision⟩

namespace Value

mutual

def toJson : Value → Json
  | null => .string "null"
  | bool b => .tagged "bool" (.bool b)
  | int i => .tagged "int" (.ofInt64 i)
  | float x => .tagged "float" (.float x)
  | text s => .tagged "text" (.string s)
  | bytes bs => .tagged "bytes" (bytesToJson bs)
  | date d => .tagged "date" (.string d.text)
  | timestamp t => .tagged "timestamp" (.string t.text)
  | key k => .tagged "key" k.toJson
  | record parts => .tagged "record" (.array (toJsonAll parts))

def toJsonAll : List Value → List Json
  | [] => []
  | v :: vs => toJson v :: toJsonAll vs

end

mutual

def ofJson? : Json → Option Value
  | .string "null" => some null
  | .object [("null", .null)] => some null
  | .object [("bool", j)] => j.asBool?.map bool
  | .object [("int", j)] => j.asInt64?.map int
  | .object [("float", j)] => j.asFloat?.map float
  | .object [("text", j)] => j.asString?.map text
  | .object [("bytes", j)] => (bytesOfJson? j).map bytes
  | .object [("date", j)] => (j.asString?.bind Date.ofText?).map date
  | .object [("timestamp", j)] => (j.asString?.bind Timestamp.ofText?).map timestamp
  | .object [("key", j)] => (Key.ofJson? j).map key
  | .object [("record", .array js)] => (ofJsonAll? js).map record
  | _ => none

def ofJsonAll? : List Json → Option (List Value)
  | [] => some []
  | j :: js => do
    let v ← ofJson? j
    let vs ← ofJsonAll? js
    pure (v :: vs)

end

end Value

end Clausal
