import Clausal.Proofs.Json.Shape
import Clausal.Wire.Schema

/-!
# Types and entities are read back

Types, fields and entities are given back by their JSON forms, however strictly these are read.
-/

namespace Clausal

variable {how : Json.Reading}

@[simp] theorem LogicalType.ofJson?_toJson (t : LogicalType) : ofJson? how t.toJson = some t := by
  cases t with
  | named name => rfl
  | _ => exact Json.asTag?_string rfl

@[simp] theorem ColumnType.ofJson?_toJson (t : ColumnType) : ofJson? how t.toJson = some t := by
  have hlength (n : Option UInt32) :
      (Json.ofOption (fun n : UInt32 => .ofNat n.toNat) n).asOption? Json.asUInt32? = some n :=
    Json.asOption?_ofOption Json.asUInt32?_ofNat (fun n => Json.ofNat_ne_null n.toNat) n
  have hdigits (n : Option UInt16) :
      (Json.ofOption (fun n : UInt16 => .ofNat n.toNat) n).asOption? Json.asUInt16? = some n :=
    Json.asOption?_ofOption Json.asUInt16?_ofNat (fun n => Json.ofNat_ne_null n.toNat) n
  cases t with
  | decimal precision scale => simp [toJson, Json.tagged, ofJson?, hdigits]
  | char length => simp [toJson, Json.tagged, ofJson?, hlength]
  | varchar length => simp [toJson, Json.tagged, ofJson?, hlength]
  | custom spelling => rfl
  | _ => exact Json.asTag?_string rfl

@[simp] theorem Field.ofJson?_toJson (f : Field) : ofJson? how f.toJson = some f := by
  obtain ⟨name, type, nullable, key, column⟩ := f
  cases column <;> simp [toJson, ofJson?]

@[simp] theorem Entity.ofJson?_toJson (e : Entity) : ofJson? how e.toJson = some e := by
  obtain ⟨name, table, fields⟩ := e
  have hfields : (Json.array (fields.map Field.toJson)).asList? (Field.ofJson? how) = some fields :=
    Json.asList?_map fun f _ => f.ofJson?_toJson
  cases table <;> simp [toJson, ofJson?, hfields]

end Clausal
