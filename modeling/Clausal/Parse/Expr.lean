import Clausal.Expr.Basic
import Clausal.Parse.Cursor

/-!
# Reading expressions

An expression is read token by token with a stack of what is still open around the operand at hand. A
mode says what may come next. When an operand is complete, the next token decides: an operator that
binds tighter than the innermost open construct asks for is opened in turn, and any other token closes
that construct and is looked at again one level further out. An expression ends before the first token
that nothing open can take. Since every step passes one token, nesting costs no recursion.
-/

namespace Clausal.Parse

/-- What is open around an operand. -/
inductive Frame where
  | group
  | unary (op : UnaryOp)
  | binary (left : Expr) (op : BinaryOp)
  /-- The list of an IN test, with the items before this one, last first. -/
  | item (subject : Expr) (negated : Bool) (before : List Expr)
  /-- The lower bound of a BETWEEN test. -/
  | low (subject : Expr) (negated : Bool)
  /-- The upper bound of a BETWEEN test. -/
  | high (subject : Expr) (negated : Bool) (low : Expr)
  /-- The arguments of a function, with those before this one, last first. -/
  | argument (function : String) (distinct : Bool) (before : List Expr)

/-- What may come next. -/
inductive Mode where
  | operand
  /-- An operand after a minus sign, which makes a number negative. -/
  | negated
  /-- What follows the segments of a path. -/
  | path (segments : List String)
  | segment (before : List String)
  /-- What follows the parenthesis after a function's name. -/
  | arguments (function : String)
  /-- An argument or the closing parenthesis. -/
  | firstArgument (function : String) (distinct : Bool)
  /-- An operator, or the end of the expression. -/
  | operator (e : Expr)
  | nullTest (subject : Expr) (negated : Bool)
  /-- What follows NOT after an operand. -/
  | negatedTest (subject : Expr)
  | list (subject : Expr) (negated : Bool)

/-- What a token leads to. -/
inductive Step where
  /-- The token is passed. -/
  | shift (mode : Mode) (stack : List Frame)
  /-- The expression ends before the token. -/
  | done (e : Expr)

def binaryOp? : Token.Kind → Option BinaryOp
  | .symbol .plus => some .add
  | .symbol .minus => some .sub
  | .symbol .star => some .mul
  | .symbol .slash => some .div
  | .symbol .percent => some .mod
  | .symbol .eq => some .eq
  | .symbol .notEq => some .notEq
  | .symbol .lt => some .lt
  | .symbol .ltEq => some .ltEq
  | .symbol .gt => some .gt
  | .symbol .gtEq => some .gtEq
  | .symbol .concat => some .concat
  | .symbol .bitAnd => some .bitAnd
  | .symbol .bitOr => some .bitOr
  | .symbol .leftShift => some .leftShift
  | .symbol .rightShift => some .rightShift
  | .keyword .and => some .and
  | .keyword .or => some .or
  | .keyword .like => some .like
  | _ => none

/-- The power with which a token binds the operand before it, if it goes on with an expression. -/
def leftPower? (t : Token.Kind) : Option Nat :=
  match binaryOp? t with
  | some op => some (Precedence.leftPower op.precedence)
  | none =>
    match t with
    | .keyword .is | .keyword .in | .keyword .between | .keyword .not =>
      some (Precedence.leftPower Precedence.compare)
    | _ => none

/-- The least power that an operator needs to bind inside a frame. -/
def Frame.power : Frame → Nat
  | group | item .. | argument .. => 0
  | unary .neg => Precedence.leftPower Precedence.neg
  | unary .not => Precedence.rightPower Precedence.not + 1
  | binary _ op => Precedence.rightPower op.precedence
  | low .. | high .. => Precedence.rightPower Precedence.compare

/-- Whether a token takes an operand away from a construct of a power. -/
def binds (power : Nat) (t : Token.Kind) : Bool :=
  match leftPower? t with
  | some l => power ≤ l
  | none => false

def integer? (negative : Bool) (n : UInt64) : Option Expr :=
  let i : Int := if negative then -n.toNat else n.toNat
  if -0x8000000000000000 ≤ i ∧ i < 0x8000000000000000 then some (.literal (.integer (Int64.ofInt i))) else none

def openOperator (e : Expr) (stack : List Frame) (t : Token.Kind) : Step :=
  match binaryOp? t with
  | some op => .shift .operand (.binary e op :: stack)
  | none =>
    match t with
    | .keyword .is => .shift (.nullTest e false) stack
    | .keyword .not => .shift (.negatedTest e) stack
    | .keyword .in => .shift (.list e false) stack
    | .keyword .between => .shift .operand (.low e false :: stack)
    | _ => .done e

/-- Goes on after an operand, closing what the token does not belong to. -/
def settle (floor : Nat) (t : Token) : Expr → List Frame → Except Failure Step
  | e, [] => .ok (if binds floor t.kind then openOperator e [] t.kind else .done e)
  | e, f :: fs =>
    if binds f.power t.kind then .ok (openOperator e (f :: fs) t.kind)
    else
      match f with
      | .unary op => settle floor t (.unary op e) fs
      | .binary left op => settle floor t (.binary left op e) fs
      | .high subject negated low => settle floor t (.between subject low e negated) fs
      | .low subject negated =>
        if t.kind = .keyword .and then .ok (.shift .operand (.high subject negated e :: fs))
        else .error ⟨.unexpected (.keyword .and) t.kind, t.span⟩
      | .group =>
        if t.kind = .symbol .rightParen then .ok (.shift (.operator e) fs)
        else .error ⟨.unexpected (.symbol .rightParen) t.kind, t.span⟩
      | .item subject negated before =>
        if t.kind = .symbol .comma then
          .ok (.shift .operand (.item subject negated (e :: before) :: fs))
        else if t.kind = .symbol .rightParen then
          .ok (.shift (.operator (.isIn subject (e :: before).reverse negated)) fs)
        else .error ⟨.unexpected (.symbol .rightParen) t.kind, t.span⟩
      | .argument function distinct before =>
        if t.kind = .symbol .comma then
          .ok (.shift .operand (.argument function distinct (e :: before) :: fs))
        else if t.kind = .symbol .rightParen then
          .ok (.shift (.operator (.call function (e :: before).reverse distinct)) fs)
        else .error ⟨.unexpected (.symbol .rightParen) t.kind, t.span⟩

def beginOperand (stack : List Frame) (t : Token) : Except Failure Step :=
  let atom (e : Expr) : Except Failure Step := .ok (.shift (.operator e) stack)
  match t.kind with
  | .symbol .minus => .ok (.shift .negated stack)
  | .keyword .not => .ok (.shift .operand (.unary .not :: stack))
  | .symbol .leftParen => .ok (.shift .operand (.group :: stack))
  | .identifier name => .ok (.shift (.path [name]) stack)
  | .integer n =>
    match integer? false n with
    | some e => atom e
    | none => .error ⟨.integerRange, t.span⟩
  | .float x => atom (.literal (.float x))
  | .string s => atom (.literal (.string s))
  | .blob bytes => atom (.literal (.blob bytes))
  | .keyword .true => atom (.ofBool true)
  | .keyword .false => atom (.ofBool false)
  | .keyword .null => atom .null
  | .positional n => atom (.param (.positional n))
  | .named name => atom (.param (.named name))
  | .symbol .star => atom .wildcard
  | .malformed fault => .error ⟨.malformed fault, t.span⟩
  | other => .error ⟨.unexpected .expression other, t.span⟩

/-- Begins the first argument of a function, or ends the call without arguments. -/
def beginArgument (function : String) (distinct : Bool) (stack : List Frame) (t : Token) :
    Except Failure Step :=
  if t.kind = .symbol .rightParen then .ok (.shift (.operator (.call function [] distinct)) stack)
  else beginOperand (.argument function distinct [] :: stack) t

def step (aliases : Aliases) (floor : Nat) (mode : Mode) (stack : List Frame) (t : Token) :
    Except Failure Step :=
  match mode with
  | .operand => beginOperand stack t
  | .negated =>
    match t.kind with
    | .integer n =>
      match integer? true n with
      | some e => .ok (.shift (.operator e) stack)
      | none => .error ⟨.integerRange, t.span⟩
    | .float x => .ok (.shift (.operator (.literal (.float x.neg))) stack)
    | _ => beginOperand (.unary .neg :: stack) t
  | .path segments =>
    match t.kind, segments with
    | .symbol .dot, _ => .ok (.shift (.segment segments) stack)
    | .symbol .leftParen, [function] => .ok (.shift (.arguments function) stack)
    | _, _ => settle floor t (.field (Path.resolve aliases ⟨none, segments⟩)) stack
  | .segment before =>
    match t.kind with
    | .identifier name => .ok (.shift (.path (before ++ [name])) stack)
    | other => .error ⟨.unexpected .identifier other, t.span⟩
  | .arguments function =>
    if t.kind = .keyword .distinct then .ok (.shift (.firstArgument function true) stack)
    else beginArgument function false stack t
  | .firstArgument function distinct => beginArgument function distinct stack t
  | .operator e => settle floor t e stack
  | .nullTest subject negated =>
    if t.kind = .keyword .null then .ok (.shift (.operator (.isNull subject negated)) stack)
    else if t.kind = .keyword .not ∧ negated = false then .ok (.shift (.nullTest subject true) stack)
    else .error ⟨.unexpected (.keyword .null) t.kind, t.span⟩
  | .negatedTest subject =>
    match t.kind with
    | .keyword .like => .ok (.shift .operand (.binary subject .notLike :: stack))
    | .keyword .in => .ok (.shift (.list subject true) stack)
    | .keyword .between => .ok (.shift .operand (.low subject true :: stack))
    | other => .error ⟨.unexpected .negatedTest other, t.span⟩
  | .list subject negated =>
    if t.kind = .symbol .leftParen then .ok (.shift .operand (.item subject negated [] :: stack))
    else .error ⟨.unexpected (.symbol .leftParen) t.kind, t.span⟩

/-- Reads tokens until the expression ends. The end of the text is never passed: it ends the expression
or is unexpected. -/
def run (aliases : Aliases) (floor stop : Nat) :
    List Token → Mode → List Frame → Except Failure (Expr × List Token)
  | [], mode, stack =>
    match step aliases floor mode stack ⟨.eof, ⟨stop, stop⟩⟩ with
    | .error f => .error f
    | .ok (.done e) => .ok (e, [])
    | .ok (.shift _ _) => .error ⟨.unexpected .expression .eof, ⟨stop, stop⟩⟩
  | t :: ts, mode, stack =>
    match step aliases floor mode stack t with
    | .error f => .error f
    | .ok (.done e) => .ok (e, t :: ts)
    | .ok (.shift mode stack) => run aliases floor stop ts mode stack

/-- Reads an expression whose operators bind with at least the power `floor`. -/
def expressionAbove (floor : Nat) : Parser Expr := fun c =>
  match run c.aliases floor c.stop c.tokens .operand [] with
  | .error f => .error f
  | .ok (e, rest) => .ok (e, { c with tokens := rest })

def expression : Parser Expr := expressionAbove 0

end Clausal.Parse
