import Clausal.Dictionary
import Clausal.Schema.ColumnType
import Clausal.Text.Class
import Clausal.Text.Quoted
import Clausal.Token.Keyword

/-!
# Dialects

The few choices in which the text of a statement may vary: how the selection of everything is written,
whether an alias is introduced by a word, how column types are spelled, and which character quotes a
name. The canonical dialect is the one that is read back. A name is quoted only if it would otherwise
not be read as one identifier.
-/

namespace Clausal

/-- How the selection of everything is written. -/
inductive SelectAll where
  /-- By the alias of the first entity. -/
  | byAlias
  | byStar
  deriving DecidableEq, Repr

structure Dialect where
  name : String
  selectAll : SelectAll
  /-- Whether `AS` stands before an alias. -/
  aliasKeyword : Bool
  /-- Other spellings of column types, by their canonical spelling. -/
  typeOverrides : Dictionary String
  /-- The character that quotes a name. -/
  quote : Char
  deriving DecidableEq

namespace Dialect

/-- The dialect that is read back. -/
def canonical : Dialect := ⟨"canonical", .byAlias, false, .empty, '"'⟩

/-- The dialect whose choices are all left open. -/
def configured : Dialect := { canonical with name := "configured" }

/-- Whether a name is read as one word. -/
def isPlain (name : String) : Bool :=
  match name.toList with
  | [] => false
  | c :: cs => Text.isWordStart c && cs.all Text.isWordChar

/-- Whether a name must be quoted to be read as one identifier. -/
def needsQuoting (name : String) : Bool := !isPlain name || Keyword.isReserved name

def identifier (d : Dialect) (name : String) : String :=
  if needsQuoting name then String.ofList (Text.Quoted.enclose d.quote name.toList) else name

def columnType (d : Dialect) (t : ColumnType) : String :=
  (d.typeOverrides.get? t.spelling).getD t.spelling

end Dialect

end Clausal
