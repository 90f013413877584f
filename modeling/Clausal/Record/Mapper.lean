import Clausal.Draft.Change
import Clausal.Record.Segment
import Clausal.Value.Literal

/-!
# Mapping records

The records of an entity, as lists of one value for each field, and the rows that store them. A row has
the columns of all fields, in the order in which the fields are declared.
-/

namespace Clausal

structure MappedField where
  field : Field
  tree : SegmentTree

/-- How the records of an entity are stored. -/
structure RecordMapper where
  entity : Entity
  fields : List MappedField

namespace RecordMapper

def ofEntity (s : Storage) (e : Entity) : Except Error RecordMapper := do
  let fields ← e.fields.mapM fun f => do
    pure ⟨f, ← s.registry.segmentTree f.type (s.naming.columnName f)⟩
  pure ⟨e, fields⟩

def columns (m : RecordMapper) : List Column := m.fields.flatMap (·.tree.columns)

/-- Refuses another number of values than there are fields. -/
def checkCount (m : RecordMapper) (values : List Value) : Except RecordError Unit :=
  if values.length = m.fields.length then .ok ()
  else .error (.invalid m.entity.name (.count m.fields.length values.length))

def writeField (m : RecordMapper) (f : MappedField) (v : Value) : Except RecordError (List Entry) :=
  if v.isNull && !f.field.nullable then .error (.invalid m.entity.name (.missing f.field.name))
  else f.tree.write v

def toRow (m : RecordMapper) (values : List Value) : Except RecordError Row := do
  m.checkCount values
  let entries ← (m.fields.zip values).mapM fun (f, v) => m.writeField f v
  pure ⟨entries.flatten⟩

/-- Reads the values of fields one after the other, and leaves the other entries. -/
def readFields : List MappedField → List Entry → Except RecordError (List Value × List Entry)
  | [], entries => .ok ([], entries)
  | f :: fs, entries => do
    let (v, entries) ← f.tree.read entries
    let (vs, entries) ← readFields fs entries
    pure (v :: vs, entries)

def fromRow (m : RecordMapper) (r : Row) : Except RecordError (List Value) := do
  match ← readFields m.fields r.entries with
  | (values, []) => pure values
  | (_, e :: rest) => throw (.trailingColumns (rest.length + 1) e.column.name)

/-- Adds the value of a field to an insertion, as a literal. -/
def insertField (d : Draft Insertion) (f : MappedField × Value) : Except Error (Draft Insertion) := do
  let literal ← f.2.toLiteral
  Insertion.value d f.1.field.name (.literal literal)

/-- The statement that inserts as many values as there are fields, as literals. -/
def insertAll (m : RecordMapper) (values : List Value) : Except Error Statement := do
  let d ← (m.fields.zip values).foldlM insertField (Insertion.draft .insert m.entity)
  Insertion.build d

/-- The statement that inserts a record, with its values as literals. -/
def insert (m : RecordMapper) (values : List Value) : Except RecordError Statement := do
  m.checkCount values
  m.insertAll values

end RecordMapper

end Clausal
