import Clausal.Expr.Basic
import Clausal.Wire.Value

/-!
# The JSON form of expressions

An expression is the variant of its construct. A function without arguments may leave them out, and so
may a test that is not negated leave out that it is not.
-/

namespace Clausal

open Json (required withDefault optional)

def Path.toJson (p : Path) : Json :=
  .object (Json.fieldIf "alias" .string p.qualifier ++ [("segments", .strings p.segments)])

def Path.ofJson? (j : Json) : Option Path := do
  let fields ← j.asRecord? ["alias", "segments"]
  let qualifier ← optional fields "alias" Json.asString?
  let segments ← withDefault fields "segments" [] (Json.asList? Json.asString?)
  pure ⟨qualifier, segments⟩

def Literal.toJson : Literal → Json
  | integer i => .tagged "integer" (.ofInt64 i)
  | float x => .tagged "float" (.float x)
  | string s => .tagged "string" (.string s)
  | blob bs => .tagged "blob" (bytesToJson bs)
  | boolean b => .tagged "boolean" (.bool b)
  | null => .string "null"

def Literal.ofJson? (how : Json.Reading) : Json → Option Literal
  | .string "null" => some null
  | .object [("null", data)] => if how.isBare data then some null else none
  | .object [("integer", j)] => j.asInt64?.map integer
  | .object [("float", j)] => j.asFloat?.map float
  | .object [("string", j)] => j.asString?.map string
  | .object [("blob", j)] => (bytesOfJson? j).map blob
  | .object [("boolean", j)] => j.asBool?.map boolean
  | _ => none

def Param.toJson : Param → Json
  | positional n => .tagged "positional" (.ofNat n.toNat)
  | named name => .tagged "named" (.string name)

def Param.ofJson? : Json → Option Param
  | .object [("positional", j)] => j.asUInt32?.map positional
  | .object [("named", j)] => j.asString?.map named
  | _ => none

def BinaryOp.tag : BinaryOp → String
  | add => "add"
  | sub => "sub"
  | mul => "mul"
  | div => "div"
  | mod => "mod"
  | eq => "eq"
  | notEq => "notEq"
  | lt => "lt"
  | ltEq => "ltEq"
  | gt => "gt"
  | gtEq => "gtEq"
  | like => "like"
  | notLike => "notLike"
  | and => "and"
  | or => "or"
  | concat => "concat"
  | bitAnd => "bitAnd"
  | bitOr => "bitOr"
  | leftShift => "leftShift"
  | rightShift => "rightShift"

def BinaryOp.all : List BinaryOp :=
  [add, sub, mul, div, mod, eq, notEq, lt, ltEq, gt, gtEq, like, notLike, and, or, concat, bitAnd,
   bitOr, leftShift, rightShift]

def BinaryOp.ofTag? (tag : String) : Option BinaryOp := all.find? fun op => op.tag == tag

def BinaryOp.ofJson? (how : Json.Reading) (j : Json) : Option BinaryOp :=
  j.asTag? how (all.map fun op => (op.tag, op))

def UnaryOp.tag : UnaryOp → String
  | neg => "neg"
  | not => "not"

def UnaryOp.ofJson? (how : Json.Reading) (j : Json) : Option UnaryOp :=
  j.asTag? how [("neg", neg), ("not", not)]

namespace Expr

mutual

def toJson : Expr → Json
  | literal l => .tagged "literal" l.toJson
  | field p => .tagged "field" p.toJson
  | param p => .tagged "param" p.toJson
  | wildcard => .string "wildcard"
  | binary l op r =>
    .tagged "binary" (.object [("left", toJson l), ("op", .string op.tag), ("right", toJson r)])
  | unary op e => .tagged "unary" (.object [("op", .string op.tag), ("operand", toJson e)])
  | isNull e negated => .tagged "isNull" (.object [("expr", toJson e), ("negated", .bool negated)])
  | isIn e es negated =>
    .tagged "in" (.object
      [("expr", toJson e), ("list", .array (toJsonAll es)), ("negated", .bool negated)])
  | between e low high negated =>
    .tagged "between" (.object
      [("expr", toJson e), ("low", toJson low), ("high", toJson high), ("negated", .bool negated)])
  | call function es distinct =>
    .tagged "function" (.object
      [("name", .string function), ("args", .array (toJsonAll es)), ("distinct", .bool distinct)])

def toJsonAll : List Expr → List Json
  | [] => []
  | e :: es => toJson e :: toJsonAll es

end

mutual

def ofJson? (how : Json.Reading) : Json → Option Expr
  | .string "wildcard" => some wildcard
  | .object [("wildcard", data)] => if how.isBare data then some wildcard else none
  | .object [("literal", j)] => (Literal.ofJson? how j).map literal
  | .object [("field", j)] => (Path.ofJson? j).map field
  | .object [("param", j)] => (Param.ofJson? j).map param
  | .object [("binary", .object fields)] => do
    let l ← ofField? how "left" fields
    let op ← required fields "op" (BinaryOp.ofJson? how)
    let r ← ofField? how "right" fields
    pure (binary l op r)
  | .object [("unary", .object fields)] => do
    let op ← required fields "op" (UnaryOp.ofJson? how)
    let e ← ofField? how "operand" fields
    pure (unary op e)
  | .object [("isNull", .object fields)] => do
    let e ← ofField? how "expr" fields
    let negated ← withDefault fields "negated" false Json.asBool?
    pure (isNull e negated)
  | .object [("in", .object fields)] => do
    let e ← ofField? how "expr" fields
    let es ← ofListField? how "list" none fields
    let negated ← withDefault fields "negated" false Json.asBool?
    pure (isIn e es negated)
  | .object [("between", .object fields)] => do
    let e ← ofField? how "expr" fields
    let low ← ofField? how "low" fields
    let high ← ofField? how "high" fields
    let negated ← withDefault fields "negated" false Json.asBool?
    pure (between e low high negated)
  | .object [("function", .object fields)] => do
    let function ← required fields "name" Json.asString?
    let es ← ofListField? how "args" (some []) fields
    let distinct ← withDefault fields "distinct" false Json.asBool?
    pure (call function es distinct)
  | _ => none

/-- The expression in a field. -/
def ofField? (how : Json.Reading) (name : String) : List (String × Json) → Option Expr
  | [] => none
  | (key, j) :: rest => if key = name then ofJson? how j else ofField? how name rest

/-- The expressions in a field; `missing` stands for a field that is not there. -/
def ofListField? (how : Json.Reading) (name : String) (missing : Option (List Expr)) :
    List (String × Json) → Option (List Expr)
  | [] => missing
  | (key, .array js) :: rest =>
    if key = name then ofJsonAll? how js else ofListField? how name missing rest
  | (key, _) :: rest => if key = name then none else ofListField? how name missing rest

def ofJsonAll? (how : Json.Reading) : List Json → Option (List Expr)
  | [] => some []
  | j :: js => do
    let e ← ofJson? how j
    let es ← ofJsonAll? how js
    pure (e :: es)

end

end Expr

end Clausal
