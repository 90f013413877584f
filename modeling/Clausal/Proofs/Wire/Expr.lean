import Clausal.Proofs.Json.Shape
import Clausal.Proofs.Expr.Paths
import Clausal.Wire.Expr

/-!
# Expressions are read back

An expression is given back by its JSON form. The reader follows the fields of an object, and so each construct is
read back if the expressions in its fields are; this is an induction on the expression.
-/

namespace Clausal

variable {how : Json.Reading}

@[simp] theorem bytesOfJson?_bytesToJson (bs : List UInt8) : bytesOfJson? (bytesToJson bs) = some bs :=
  Json.asList?_map fun b _ => Json.asByte?_ofNat b

@[simp] theorem Path.ofJson?_toJson (p : Path) : ofJson? p.toJson = some p := by
  obtain ⟨qualifier, segments⟩ := p
  cases qualifier <;> simp [toJson, ofJson?]

@[simp] theorem Literal.ofJson?_toJson (l : Literal) : ofJson? how l.toJson = some l := by
  cases l with
  | integer i => simp [toJson, Json.tagged, ofJson?]
  | blob bs => simp [toJson, Json.tagged, ofJson?]
  | _ => rfl

@[simp] theorem Param.ofJson?_toJson (p : Param) : ofJson? p.toJson = some p := by
  cases p with
  | positional n => simp [toJson, Json.tagged, ofJson?]
  | named name => rfl

@[simp] theorem BinaryOp.ofJson?_tag (op : BinaryOp) : ofJson? how (.string op.tag) = some op := by
  cases op <;> exact Json.asTag?_string rfl

@[simp] theorem UnaryOp.ofJson?_tag (op : UnaryOp) : ofJson? how (.string op.tag) = some op := by
  cases op <;> exact Json.asTag?_string rfl

namespace Expr

/-! ### Fields -/

section Fields

variable (name : String) (rest : List (String × Json))

@[simp] theorem ofField?_cons (key : String) (j : Json) :
    ofField? how name ((key, j) :: rest) = if key = name then ofJson? how j else ofField? how name rest := by
  rw [ofField?]

@[simp] theorem ofListField?_nil (missing : Option (List Expr)) : ofListField? how name missing [] = missing := by
  rw [ofListField?]

@[simp] theorem ofListField?_self (missing : Option (List Expr)) (js : List Json) :
    ofListField? how name missing ((name, .array js) :: rest) = ofJsonAll? how js := by
  rw [ofListField?, if_pos rfl]

theorem ofListField?_other {key : String} (h : key ≠ name) (missing : Option (List Expr)) (j : Json) :
    ofListField? how name missing ((key, j) :: rest) = ofListField? how name missing rest := by
  cases j <;> rw [ofListField?] <;> simp [h]

end Fields

theorem ofJsonAll?_toJsonAll {es : List Expr} (h : ∀ e ∈ es, ofJson? how e.toJson = some e) :
    ofJsonAll? how (toJsonAll es) = some es := by
  induction es with
  | nil => rw [toJsonAll, ofJsonAll?]
  | cons e es ih =>
    obtain ⟨he, hes⟩ := List.forall_mem_cons.1 h
    rw [toJsonAll, ofJsonAll?, he, ih hes]
    rfl

@[simp] theorem ofJson?_toJson (e : Expr) : ofJson? how e.toJson = some e := by
  induction e using recurse with
  | literal l => simp [toJson, Json.tagged, ofJson?]
  | field p => simp [toJson, Json.tagged, ofJson?]
  | param p => simp [toJson, Json.tagged, ofJson?]
  | wildcard => rw [toJson, ofJson?]
  | binary l op r hl hr => simp [toJson, Json.tagged, ofJson?, hl, hr]
  | unary op e he => simp [toJson, Json.tagged, ofJson?, he]
  | isNull e negated he => simp [toJson, Json.tagged, ofJson?, he]
  | isIn e es negated he hes =>
    simp [toJson, Json.tagged, ofJson?, he, ofListField?_other, ofJsonAll?_toJsonAll hes]
  | between e low high negated he hlow hhigh => simp [toJson, Json.tagged, ofJson?, he, hlow, hhigh]
  | call function es distinct hes =>
    simp [toJson, Json.tagged, ofJson?, ofListField?_other, ofJsonAll?_toJsonAll hes]

end Expr

end Clausal
