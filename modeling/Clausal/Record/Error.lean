import Clausal.Error

/-!
# Errors of records

What can go wrong when a record is written into a row or read from one: an error of its values, a row
that does not have the columns of the record, or values that do not make up a record.
-/

namespace Clausal

/-- Why values do not make up a record. -/
inductive RecordFault where
  | count (expected found : Nat)
  /-- A field that must be there is null. -/
  | missing (field : String)
  deriving DecidableEq, Repr

def RecordFault.message : RecordFault → String
  | count expected found =>
    "expected " ++ toString expected ++ " values, found " ++ toString found
  | missing field => "field '" ++ field ++ "' is not nullable"

inductive RecordError where
  | value (error : Error)
  /-- A column has another name than the one that is due. -/
  | columnMismatch (expected found : String)
  | missingColumn (expected : String)
  | trailingColumns (count : Nat) (first : String)
  /-- Nothing puts the parts of a value together. -/
  | missingAssembly (type : LogicalType)
  | invalid (entity : String) (fault : RecordFault)
  deriving DecidableEq, Repr

def RecordError.message : RecordError → String
  | value error => error.message
  | columnMismatch expected found =>
    "column mismatch: expected '" ++ expected ++ "', found '" ++ found ++ "'"
  | missingColumn expected => "row ended before column '" ++ expected ++ "'"
  | trailingColumns count first =>
    toString count ++ " unexpected trailing column(s), starting with '" ++ first ++ "'"
  | missingAssembly type =>
    "type mapper for " ++ type.name ++ " has sibling columns but no value builder"
  | invalid entity fault => "invalid record for " ++ entity ++ ": " ++ fault.message

instance : MonadLift (Except Error) (Except RecordError) := ⟨fun x => x.mapError .value⟩

end Clausal
