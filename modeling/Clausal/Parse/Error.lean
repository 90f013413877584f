import Clausal.Error
import Clausal.Token.Basic

/-!
# Parse errors

Why a text is not a statement, and where. What was expected and what was found are known exactly when a
token stands in the wrong place. An error that is handed to the outside also carries the text before and
after the place, so that it can be understood without the text.
-/

namespace Clausal

namespace Parse

/-- What may stand at a place. -/
inductive Expected where
  | statement
  | selection
  | expression
  | identifier
  | integer
  | negatedTest
  | constraint
  | symbol (s : Symbol)
  | keyword (k : Keyword)
  | endOfText
  deriving DecidableEq, Repr

def Expected.text : Expected → String
  | statement => "SELECT, INSERT, UPSERT, MERGE, UPDATE, DELETE, or CREATE"
  | selection => "selection"
  | expression => "expression"
  | identifier => "identifier"
  | integer => "integer"
  | negatedTest => "LIKE, IN, or BETWEEN"
  | constraint => "PRIMARY KEY, UNIQUE, or CHECK"
  | symbol s => (Token.Kind.symbol s).describe
  | keyword k => k.text
  | endOfText => "end of input"

/-- Why a text is not a statement. -/
inductive Fault where
  /-- A token stands where another one should. -/
  | unexpected (expected : Expected) (found : Token.Kind)
  /-- What should be an expression is no token. -/
  | malformed (fault : Token.Fault)
  /-- Everything is selected from an entity that is not the primary one. -/
  | notPrimary (name : String)
  /-- There are not as many values as paths. -/
  | arity (paths values : Nat)
  /-- A literal does not fit 64 bits. -/
  | integerRange
  /-- The argument of a type does not fit 32 bits. -/
  | argumentRange
  /-- The text is well formed, but the statement is not sound. -/
  | rejected (error : Error)
  deriving DecidableEq, Repr

namespace Fault

def message : Fault → String
  | unexpected expected .eof => "Unexpected end of input: expected " ++ expected.text
  | unexpected expected found =>
    "Unexpected token: expected " ++ expected.text ++ ", found " ++ found.describe
  | malformed fault => fault.message
  | notPrimary name => "'" ++ name ++ "' is not the alias of the primary entity"
  | arity paths values => toString paths ++ " columns but " ++ toString values ++ " values"
  | integerRange => "integer literal out of range"
  | argumentRange => "type argument out of range"
  | rejected error => error.message

def expected? : Fault → Option Expected
  | unexpected expected _ => some expected
  | _ => none

def found? : Fault → Option Token.Kind
  | unexpected _ found => some found
  | _ => none

end Fault

structure Failure where
  fault : Fault
  span : Span
  deriving DecidableEq, Repr

end Parse

/-- Why a text is not a statement, with the text around the place. -/
structure ParseError where
  fault : Parse.Fault
  span : Span
  /-- The text before the place. -/
  parsed : String
  /-- The text from the place on. -/
  remaining : String
  deriving DecidableEq, Repr

namespace ParseError

def ofFailure (text : String) (f : Parse.Failure) : ParseError :=
  let (parsed, remaining) := f.span.split text
  ⟨f.fault, f.span, parsed, remaining⟩

/-- The wording of an error, with its place and the text around it. -/
def message (e : ParseError) : String :=
  e.fault.message ++ " at position " ++ toString e.span.start ++ ".." ++ toString e.span.stop
    ++ " (parsed: '" ++ e.parsed ++ "', remaining: '" ++ e.remaining ++ "')"

end ParseError

end Clausal
