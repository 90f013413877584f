import Clausal.Binary64.Layout
import Clausal.Text.Offset
import Clausal.Token.Keyword
import Clausal.Token.Symbol

/-!
# Tokens

What a token is, where it stands, and how it is named in a diagnostic. Text that is no token is a
malformed token that knows its fault. The end of the text is a token of its own, of no width.
-/

namespace Clausal

/-- A half-open range of byte offsets. -/
structure Span where
  start : Nat
  stop : Nat
  deriving DecidableEq, Repr

namespace Span

def length (s : Span) : Nat := s.stop - s.start

def isEmpty (s : Span) : Bool := s.start == s.stop

/-- The text before the start of the span, and the text from there on. -/
def split (s : Span) (text : String) : String × String :=
  let (before, after) := Text.splitBytes s.start text.toList
  (String.ofList before, String.ofList after)

end Span

namespace Token

/-- Why a piece of text is no token. -/
inductive Fault where
  | badFloat (text : String)
  | bigInteger (text : String)
  | openString
  | openBlob
  | oddBlob
  | badBlob
  | openName
  | emptyName
  | missingIndex
  | missingName
  | strangeCharacter (c : Char)
  deriving DecidableEq, Repr

def Fault.message : Fault → String
  | badFloat text => "invalid float " ++ text ++ ": invalid float literal"
  | bigInteger text => "invalid integer " ++ text ++ ": number too large to fit in target type"
  | openString => "unterminated string literal"
  | openBlob => "unterminated blob literal"
  | oddBlob => "odd number of hex digits in blob literal"
  | badBlob => "invalid character in blob literal"
  | openName => "unterminated quoted identifier"
  | emptyName => "empty quoted identifier"
  | missingIndex => "positional parameter requires an index, e.g. ?1"
  | missingName => "named parameter requires a name, e.g. :id"
  | strangeCharacter c => "unexpected character '" ++ String.ofList [c] ++ "'"

inductive Kind where
  | integer (n : UInt64)
  | float (x : Binary64)
  /-- A string, without its quotes. -/
  | string (s : String)
  | blob (bytes : List UInt8)
  /-- A name, quoted or not. -/
  | identifier (name : String)
  | keyword (k : Keyword)
  /-- A numbered parameter. -/
  | positional (n : UInt32)
  | named (name : String)
  | symbol (s : Symbol)
  /-- Text that is no token. -/
  | malformed (fault : Fault)
  | eof
  deriving DecidableEq, Repr

/-- The name of a token in a diagnostic. -/
def Kind.describe : Kind → String
  | integer n => "integer " ++ toString n.toNat
  | float x => "float " ++ x.text .statement
  | string s => "string '" ++ s ++ "'"
  | blob _ => "blob"
  | identifier name => "identifier '" ++ name ++ "'"
  | keyword k => "keyword " ++ k.text
  | positional n => "parameter ?" ++ toString n.toNat
  | named name => "parameter :" ++ name
  | symbol s => "'" ++ s.text ++ "'"
  | malformed fault => "error: " ++ fault.message
  | eof => "end of input"

end Token

structure Token where
  kind : Token.Kind
  span : Span
  deriving DecidableEq, Repr

end Clausal
