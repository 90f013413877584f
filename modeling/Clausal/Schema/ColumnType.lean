/-!
# Column types

The types of physical columns, and their spelling in a table definition. A type is read from its name
and the numbers in parentheses after it. A name that is not known, or that does not take these numbers,
is a custom type, which keeps its text.
-/

namespace Clausal

inductive ColumnType where
  | smallint
  | integer
  | bigint
  | real
  | double
  | decimal (precision scale : Option UInt16)
  | char (length : Option UInt32)
  | varchar (length : Option UInt32)
  | text
  | blob
  | date
  | time
  | timestamp
  | boolean
  /-- Any other type, as it is spelled. -/
  | custom (spelling : String)
  deriving DecidableEq, Repr

namespace ColumnType

/-- A name with a length in parentheses, if there is one. -/
def sized (name : String) : Option UInt32 → String
  | none => name
  | some n => name ++ "(" ++ toString n.toNat ++ ")"

def spelling : ColumnType → String
  | smallint => "SMALLINT"
  | integer => "INTEGER"
  | bigint => "BIGINT"
  | real => "REAL"
  | double => "DOUBLE"
  | decimal (some p) (some s) => "DECIMAL(" ++ toString p.toNat ++ ", " ++ toString s.toNat ++ ")"
  | decimal (some p) none => "DECIMAL(" ++ toString p.toNat ++ ")"
  | decimal none _ => "DECIMAL"
  | char length => sized "CHAR" length
  | varchar length => sized "VARCHAR" length
  | text => "TEXT"
  | blob => "BLOB"
  | date => "DATE"
  | time => "TIME"
  | timestamp => "TIMESTAMP"
  | boolean => "BOOLEAN"
  | custom spelling => spelling

/-- The number in 16 bits, if it fits. -/
def narrow? (n : UInt32) : Option UInt16 :=
  if n.toNat < UInt16.size then some (UInt16.ofNat n.toNat) else none

/-- The known type with a capitalised name and arguments. -/
def known? (name : String) (args : List UInt32) : Option ColumnType :=
  match args with
  | [] =>
    if name = "SMALLINT" then some smallint
    else if name = "INTEGER" ∨ name = "INT" then some integer
    else if name = "BIGINT" then some bigint
    else if name = "REAL" then some real
    else if name = "DOUBLE" then some double
    else if name = "DECIMAL" ∨ name = "NUMERIC" then some (decimal none none)
    else if name = "CHAR" then some (char none)
    else if name = "VARCHAR" then some (varchar none)
    else if name = "TEXT" then some text
    else if name = "BLOB" then some blob
    else if name = "DATE" then some date
    else if name = "TIME" then some time
    else if name = "TIMESTAMP" ∨ name = "DATETIME" then some timestamp
    else if name = "BOOLEAN" ∨ name = "BOOL" then some boolean
    else none
  | [n] =>
    if name = "DECIMAL" ∨ name = "NUMERIC" then (narrow? n).map fun p => decimal (some p) none
    else if name = "CHAR" then some (char (some n))
    else if name = "VARCHAR" then some (varchar (some n))
    else none
  | [n, m] =>
    if name = "DECIMAL" ∨ name = "NUMERIC" then do
      let p ← narrow? n
      let s ← narrow? m
      pure (decimal (some p) (some s))
    else none
  | _ => none

def customOf (name : String) (args : List UInt32) : ColumnType :=
  if args.isEmpty then custom name
  else custom (name ++ "(" ++ String.intercalate ", " (args.map fun n => toString n.toNat) ++ ")")

/-- The type with a name and arguments. Case does not matter in the names of known types. -/
def ofParts (name : String) (args : List UInt32) : ColumnType :=
  (known? (String.ofList (name.toList.map Char.toUpper)) args).getD (customOf name args)

end ColumnType

end Clausal
