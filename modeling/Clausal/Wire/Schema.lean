import Clausal.Json.Shape
import Clausal.Schema.ColumnType
import Clausal.Schema.Entity

/-!
# The JSON form of types and entities

A type is the variant of its name. In an entity the table is left out when it has none of its own, and so
is the column of a field. A field may hold null unless it says otherwise.
-/

namespace Clausal

open Json (required withDefault optional)

/-- The tags of the types without data. -/
def LogicalType.tags : List (String × LogicalType) :=
  [("bool", .bool), ("int", .int), ("long", .long), ("float", .float), ("text", .text),
   ("bytes", .bytes), ("date", .date), ("timestamp", .timestamp), ("key", .key)]

def LogicalType.toJson : LogicalType → Json
  | named name => .tagged "named" (.string name)
  | type => .string type.name

def LogicalType.ofJson? (how : Json.Reading) : Json → Option LogicalType
  | .object [("named", j)] => j.asString?.map named
  | j => j.asTag? how tags

/-- The tags of the column types without data. -/
def ColumnType.tags : List (String × ColumnType) :=
  [("smallint", .smallint), ("integer", .integer), ("bigint", .bigint), ("real", .real),
   ("double", .double), ("text", .text), ("blob", .blob), ("date", .date), ("time", .time),
   ("timestamp", .timestamp), ("boolean", .boolean)]

def ColumnType.toJson : ColumnType → Json
  | smallint => .string "smallint"
  | integer => .string "integer"
  | bigint => .string "bigint"
  | real => .string "real"
  | double => .string "double"
  | decimal precision scale =>
    .tagged "decimal" (.object
      [("precision", .ofOption (fun n => .ofNat n.toNat) precision),
       ("scale", .ofOption (fun n => .ofNat n.toNat) scale)])
  | char length => .tagged "char" (.ofOption (fun n => .ofNat n.toNat) length)
  | varchar length => .tagged "varchar" (.ofOption (fun n => .ofNat n.toNat) length)
  | text => .string "text"
  | blob => .string "blob"
  | date => .string "date"
  | time => .string "time"
  | timestamp => .string "timestamp"
  | boolean => .string "boolean"
  | custom spelling => .tagged "custom" (.string spelling)

def ColumnType.ofJson? (how : Json.Reading) : Json → Option ColumnType
  | .object [("decimal", .object fields)] => do
    let precision ← optional fields "precision" Json.asUInt16?
    let scale ← optional fields "scale" Json.asUInt16?
    pure (decimal precision scale)
  | .object [("char", j)] => (j.asOption? Json.asUInt32?).map char
  | .object [("varchar", j)] => (j.asOption? Json.asUInt32?).map varchar
  | .object [("custom", j)] => j.asString?.map custom
  | j => j.asTag? how tags

def Field.toJson (f : Field) : Json :=
  .object ([("name", .string f.name), ("ty", f.type.toJson), ("nullable", .bool f.nullable),
    ("key", .bool f.key)] ++ Json.fieldIf "column" .string f.column)

def Field.ofJson? (how : Json.Reading) (j : Json) : Option Field := do
  let fields ← j.asRecord? ["name", "ty", "nullable", "key", "column"]
  let name ← required fields "name" Json.asString?
  let type ← required fields "ty" (LogicalType.ofJson? how)
  let nullable ← withDefault fields "nullable" true Json.asBool?
  let key ← withDefault fields "key" false Json.asBool?
  let column ← optional fields "column" Json.asString?
  pure ⟨name, type, nullable, key, column⟩

def Entity.toJson (e : Entity) : Json :=
  .object ([("name", .string e.name)] ++ Json.fieldIf "table" .string e.table
    ++ [("fields", .array (e.fields.map Field.toJson))])

def Entity.ofJson? (how : Json.Reading) (j : Json) : Option Entity := do
  let fields ← j.asRecord? ["name", "table", "fields"]
  let name ← required fields "name" Json.asString?
  let table ← optional fields "table" Json.asString?
  let declared ← withDefault fields "fields" [] (Json.asList? (Field.ofJson? how))
  pure ⟨name, table, declared⟩

end Clausal
