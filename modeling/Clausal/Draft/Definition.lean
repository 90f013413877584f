import Clausal.Draft.Basic
import Clausal.Mapping.Columns
import Clausal.Statement.Basic

/-!
# Drafts of definitions

The definition of a table follows from its entity: every field takes up the columns that its type needs.
The first of them stands for the field in constraints. The fields of the key make up the primary key;
the others must not be null, unless they may.
-/

namespace Clausal

structure StoredField where
  field : Field
  /-- The column that stands for the field. -/
  first : Column
  others : List Column

namespace StoredField

def columns (f : StoredField) : List Column := f.first :: f.others

/-- A field with its columns, of which there must be one. -/
def ofColumns? (f : Field) : List Column → Option StoredField
  | [] => none
  | first :: others => some ⟨f, first, others⟩

def group (f : StoredField) : ColumnGroup := ⟨.bare f.field.name, f.columns⟩

/-- The constraint that a field is there, if it must be and is not part of the key. -/
def notNull? (table : String) (f : StoredField) : Option Constraint :=
  if f.field.key || f.field.nullable then none
  else some ⟨table ++ "_" ++ f.first.name ++ "_nn", .check (.isNull (.field (.bare f.first.name)) true)⟩

end StoredField

/-- A demand that no two rows agree in some fields. -/
structure UniqueDemand where
  name : String
  fields : List String

namespace Entity

def storedFields (e : Entity) (s : Storage) : Except Error (List StoredField) := do
  let columns ← e.fields.mapM s.fieldColumns
  pure ((e.fields.zip columns).filterMap fun (f, cs) => StoredField.ofColumns? f cs)

/-- The primary key of a table, if a field belongs to it. -/
def primaryKey (table : String) (stored : List StoredField) : List Constraint :=
  match (stored.filter (·.field.key)).map (·.first.name) with
  | [] => []
  | names => [⟨table ++ "_pk", .primaryKey names⟩]

/-- The column that stands for a field. -/
def firstColumn (e : Entity) (stored : List StoredField) (name : String) : Except Error String :=
  match stored.find? fun f => f.field.name == name with
  | some f => .ok f.first.name
  | none => .error (.unknownField e.name name)

def uniqueConstraint (e : Entity) (stored : List StoredField) (u : UniqueDemand) :
    Except Error Constraint := do
  pure ⟨u.name, .unique (← u.fields.mapM (e.firstColumn stored))⟩

def createTable (e : Entity) (s : Storage) (unique : List UniqueDemand) :
    Except Error Statement := do
  let stored ← e.storedFields s
  let demanded ← unique.mapM (e.uniqueConstraint stored)
  let constraints :=
    stored.filterMap (StoredField.notNull? e.tableName) ++ primaryKey e.tableName stored ++ demanded
  Statement.ofBody (.createTable
    ⟨.ofEntity e, ⟨stored.map StoredField.group, constraints, false⟩⟩)

end Entity

/-- An index without its target. -/
structure IndexParts where
  head : IndexHead
  paths : List Path

namespace IndexParts

def draft (name : String) (e : Entity) : Draft IndexParts := ⟨.ofEntity e, ⟨⟨name, false⟩, []⟩⟩

/-- Refuses equal entries. -/
def unique (d : Draft IndexParts) : Draft IndexParts :=
  { d with parts := { d.parts with head := { d.parts.head with unique := true } } }

def column (d : Draft IndexParts) (field : String) : Except Error (Draft IndexParts) :=
  d.edit (Scope.path .primary field) fun p i => { i with paths := i.paths ++ [p] }

def build (d : Draft IndexParts) : Except Error Statement := do
  let target ← d.scope.target
  Statement.ofBody (.createIndex ⟨d.parts.head, target, d.parts.paths⟩)

end IndexParts

end Clausal
