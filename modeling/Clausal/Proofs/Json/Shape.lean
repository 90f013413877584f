import Clausal.Json.Shape

/-!
# Shapes are read back

What is written in one of the common shapes is read from it again: numbers of a width, lists whose items are read
back, fields that may be left out, and tags. A reader of lists needs to succeed on the items of the list only. The
fields of a record are looked up one after the other.
-/

namespace Clausal.Json

variable {α : Type}

/-! ### Numbers -/

theorem asNat?_ofNat {n bound : Nat} (h : n < bound) : (ofNat n).asNat? bound = some n := by
  have hrange : 0 ≤ (n : Int) ∧ (n : Int) < bound := ⟨Int.natCast_nonneg n, Int.ofNat_lt.2 h⟩
  rw [ofNat, asNat?, if_pos hrange, Int.toNat_natCast]

@[simp] theorem ofNat_ne_null (n : Nat) : ofNat n ≠ null := nofun

@[simp] theorem asByte?_ofNat (b : UInt8) : (ofNat b.toNat).asByte? = some b := by
  rw [asByte?, asNat?_ofNat b.toNat_lt, Option.map_some, UInt8.ofNat_toNat]

@[simp] theorem asUInt16?_ofNat (n : UInt16) : (ofNat n.toNat).asUInt16? = some n := by
  rw [asUInt16?, asNat?_ofNat n.toNat_lt, Option.map_some, UInt16.ofNat_toNat]

@[simp] theorem asUInt32?_ofNat (n : UInt32) : (ofNat n.toNat).asUInt32? = some n := by
  rw [asUInt32?, asNat?_ofNat n.toNat_lt, Option.map_some, UInt32.ofNat_toNat]

@[simp] theorem asUInt64?_ofNat (n : UInt64) : (ofNat n.toNat).asUInt64? = some n := by
  rw [asUInt64?, asNat?_ofNat n.toNat_lt, Option.map_some, UInt64.ofNat_toNat]

@[simp] theorem asInt64?_ofInt64 (i : Int64) : (ofInt64 i).asInt64? = some i := by
  have hrange : -0x8000000000000000 ≤ i.toInt ∧ i.toInt < 0x8000000000000000 := ⟨i.le_toInt, i.toInt_lt⟩
  rw [ofInt64, asInt64?, if_pos hrange, Int64.ofInt_toInt]

/-! ### Strings, booleans and lists -/

@[simp] theorem asString?_string (s : String) : (string s).asString? = some s := rfl

@[simp] theorem asBool?_bool (b : Bool) : (bool b).asBool? = some b := rfl

theorem mapM_map {β : Type} {read : β → Option α} {write : α → β} {xs : List α}
    (h : ∀ x ∈ xs, read (write x) = some x) : (xs.map write).mapM read = some xs := by
  induction xs with
  | nil => rfl
  | cons x xs ih =>
    obtain ⟨hx, hxs⟩ := List.forall_mem_cons.1 h
    rw [List.map_cons, List.mapM_cons, hx, ih hxs]
    rfl

theorem asList?_map {read : Json → Option α} {write : α → Json} {xs : List α}
    (h : ∀ x ∈ xs, read (write x) = some x) : (array (xs.map write)).asList? read = some xs :=
  mapM_map h

@[simp] theorem asList?_strings (ss : List String) : (strings ss).asList? asString? = some ss :=
  asList?_map fun _ _ => rfl

/-! ### Options -/

theorem asOption?_eq {read : Json → Option α} {j : Json} (h : j ≠ null) : j.asOption? read = (read j).map some := by
  unfold asOption?
  split
  · exact absurd rfl h
  · rfl

/-- A value that is not null is read back where null would be nothing. -/
theorem asOption?_ofOption {read : Json → Option α} {write : α → Json} (hread : ∀ x, read (write x) = some x)
    (hnull : ∀ x, write x ≠ null) (o : Option α) : (ofOption write o).asOption? read = some o := by
  cases o with
  | none => rfl
  | some x => rw [ofOption, asOption?_eq (hnull x), hread, Option.map_some]

@[simp] theorem asOption?_null (read : Json → Option α) : null.asOption? read = some none := rfl

@[simp] theorem asOption?_string (s : String) : (string s).asOption? asString? = some (some s) := rfl

/-! ### Fields -/

@[simp] theorem asRecord?_object (order : List String) (fields : List (String × Json)) :
    (object fields).asRecord? order = some fields := rfl

@[simp] theorem fieldIf_none (name : String) (write : α → Json) : fieldIf name write none = [] := rfl

@[simp] theorem fieldIf_some (name : String) (write : α → Json) (x : α) :
    fieldIf name write (some x) = [(name, write x)] := rfl

section Fields

variable (read : Json → Option α) (default : α) (name key : String) (j : Json) (rest : List (String × Json))

@[simp] theorem required_cons :
    required ((key, j) :: rest) name read = if key = name then read j else required rest name read := by
  rw [required, lookup]
  split <;> rfl

@[simp] theorem withDefault_nil : withDefault [] name default read = some default := rfl

@[simp] theorem withDefault_cons :
    withDefault ((key, j) :: rest) name default read =
      if key = name then read j else withDefault rest name default read := by
  rw [withDefault, lookup]
  by_cases h : key = name
  · rw [if_pos h, if_pos h]
  · rw [if_neg h, if_neg h, withDefault]

@[simp] theorem optional_nil : Json.optional [] name read = some none := rfl

@[simp] theorem optional_cons :
    Json.optional ((key, j) :: rest) name read =
      if key = name then j.asOption? read else Json.optional rest name read :=
  withDefault_cons (asOption? read) none name key j rest

end Fields

/-! ### Tags -/

/-- A tag is read as the first variant that has it. -/
theorem asTag?_string {how : Reading} {tags : List (String × α)} {tag : String} {x : α}
    (h : tags.find? (fun t => t.1 == tag) = some (tag, x)) : (string tag).asTag? how tags = some x := by
  have hbare : how.isBare none = true := by cases how <;> rfl
  show (if how.isBare none then (tags.find? fun t => t.1 == tag).map (·.2) else none) = some x
  rw [if_pos hbare, h, Option.map_some]

end Clausal.Json
