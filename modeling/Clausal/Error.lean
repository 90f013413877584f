import Clausal.Binary64.Layout
import Clausal.Schema.LogicalType
import Clausal.Value.Basic

/-!
# Errors

What can go wrong when a statement is built or a value is mapped. Every constructor is a cause; the
wording of all of them is in one place.
-/

namespace Clausal

inductive ConversionFault where
  /-- The value is of a sort that the type does not have. -/
  | unexpected (kind : Value.Kind)
  /-- The value is of another sort than the type that is asked for. -/
  | mismatch (expected : LogicalType) (found : Value.Kind)
  /-- The number does not fit the column. -/
  | wide (i : Int64)
  /-- The number does not fit the field. -/
  | tooLarge
  | tooSmall
  /-- The column of an identifier holds something else than a number. -/
  | notAnId (kind : Value.Kind)
  /-- There is a revision without its identifier. -/
  | revisionAlone (kind : Value.Kind)
  /-- A composite has another number of components. -/
  | components (expected found : Nat)
  | allNull
  | noLiteral
  /-- A conversion that its user defines gives its own reason. -/
  | custom (reason : String)
  deriving DecidableEq, Repr

def ConversionFault.message : ConversionFault → String
  | unexpected kind => "unexpected " ++ kind.name ++ " value"
  | mismatch expected found => "expected " ++ expected.name ++ ", found " ++ found.name
  | wide i => toString i.toInt ++ " does not fit in 32 bits"
  | tooLarge => "number too large to fit in target type"
  | tooSmall => "number too small to fit in target type"
  | notAnId kind => "id column holds " ++ kind.name
  | revisionAlone kind => "a revision alone (" ++ kind.name ++ ") is not a key"
  | components expected found =>
    "expected " ++ toString expected ++ " components, found " ++ toString found
  | allNull => "every component is null, write a null value instead"
  | noLiteral => "composite values have no literal form"
  | custom reason => reason

inductive AssemblyFault where
  | noComponents
  | unexpectedPart (kind : Value.Kind) (part : String)
  | missingId
  | unknownComponent (name : String)
  | missingComponent (name : String)
  deriving DecidableEq, Repr

def AssemblyFault.message : AssemblyFault → String
  | noComponents => "a composite needs at least one component"
  | unexpectedPart kind part => "unexpected " ++ kind.name ++ " for part '" ++ part ++ "'"
  | missingId => "id part was never set"
  | unknownComponent name => "unknown component '" ++ name ++ "'"
  | missingComponent name => "component '" ++ name ++ "' was never set"

inductive Error where
  | duplicateAlias (name : String)
  | aliasSpaceExhausted (entity : String)
  /-- A handle stands for no entity of the statement. -/
  | unboundHandle (index : Nat)
  | unknownField (entity field : String)
  | unmapped (type : LogicalType)
  | conversion (type : LogicalType) (fault : ConversionFault)
  | assembly (type : LogicalType) (fault : AssemblyFault)
  | nonFiniteFloat (x : Binary64)
  /-- A type is stored by way of itself. -/
  | endless (type : LogicalType)
  deriving DecidableEq, Repr

def Error.message : Error → String
  | duplicateAlias name => "alias '" ++ name ++ "' is already bound in this statement"
  | aliasSpaceExhausted entity => "no free alias left for entity '" ++ entity ++ "'"
  | unboundHandle index => "alias '#" ++ toString index ++ "' is not bound in this statement"
  | unknownField entity field => "entity '" ++ entity ++ "' has no field '" ++ field ++ "'"
  | unmapped type => "no type mapping registered for " ++ type.name
  | conversion type fault => "cannot convert value of " ++ type.name ++ ": " ++ fault.message
  | assembly type fault => "cannot build " ++ type.name ++ ": " ++ fault.message
  | nonFiniteFloat x => "float literal " ++ x.text .statement ++ " is not finite"
  | endless type => "type mapping of " ++ type.name ++ " never reaches a column"

end Clausal
