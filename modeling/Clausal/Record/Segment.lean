import Clausal.Mapping.Columns
import Clausal.Record.Error
import Clausal.Record.Row

/-!
# Segments

The mapper of a field, followed down to its columns. A link into a column is a leaf. A link into another
logical type is a branch, with the tree of that type below it. Writing a value makes one entry for every
leaf; reading takes as many entries from the front of a row, in the same order. A chain of several links
is read part by part, and the parts are put together.
-/

namespace Clausal

/-- A link and what its values go through. -/
inductive Segment where
  | leaf (link : Link) (column : Column)
  | branch (link : Link) (first : Segment) (siblings : List Segment)

structure SegmentTree where
  first : Segment
  siblings : List Segment

namespace Segment

def link : Segment → Link
  | leaf l _ => l
  | branch l _ _ => l

mutual

/-- The columns of a segment, in the order of a row. -/
def columns : Segment → List Column
  | leaf _ c => [c]
  | branch _ first siblings => columns first ++ columnsAll siblings

def columnsAll : List Segment → List Column
  | [] => []
  | s :: ss => columns s ++ columnsAll ss

end

mutual

def count : Segment → Nat
  | leaf _ _ => 1
  | branch _ first siblings => count first + countAll siblings

def countAll : List Segment → Nat
  | [] => 0
  | s :: ss => count s + countAll ss

end

/-- The stored form of a value, null or not. -/
def stored (l : Link) (v : Value) : Except Error Value :=
  if v.isNull then .ok l.nullTarget else l.toTarget v

mutual

def write : Segment → Value → Except Error (List Entry)
  | leaf l c, v => do
    let v ← stored l v
    pure [⟨c, v⟩]
  | branch l first siblings, v => do
    let v ← stored l v
    let entries ← write first v
    let others ← writeAll siblings v
    pure (entries ++ others)

def writeAll : List Segment → Value → Except Error (List Entry)
  | [], _ => .ok []
  | s :: ss, v => do
    let entries ← write s v
    let others ← writeAll ss v
    pure (entries ++ others)

end

/-- Takes the value of a column from the front of a row. -/
def readColumn (c : Column) : List Entry → Except RecordError (Value × List Entry)
  | [] => .error (.missingColumn c.name)
  | e :: rest =>
    if e.column.name = c.name then .ok (e.value, rest)
    else .error (.columnMismatch c.name e.column.name)

/-- The value of a stored form, null or not, of a chain that has one link only. -/
def restored (l : Link) (v : Value) : Except RecordError Value :=
  if v.isNull then .ok .null else l.fromTarget v

/-- Begins to put a value together, with the part of the first link. -/
def begin (l : Link) (v : Value) : Except RecordError Assembly :=
  match l.assembly with
  | none => .error (.missingAssembly l.source)
  | some a => a.put l.part v

mutual

/-- Reads the stored form of a value, and leaves the other entries. -/
def read : Segment → List Entry → Except RecordError (Value × List Entry)
  | leaf _ c, entries => readColumn c entries
  | branch _ first siblings, entries => do
    let (v, entries) ← read first entries
    match siblings with
    | [] => pure (← restored first.link v, entries)
    | s :: ss =>
      let a ← begin first.link v
      let (a, entries) ← readParts (s :: ss) a entries
      pure (← a.build, entries)

def readParts : List Segment → Assembly → List Entry → Except RecordError (Assembly × List Entry)
  | [], a, entries => .ok (a, entries)
  | s :: ss, a, entries => do
    let (v, entries) ← read s entries
    let a ← a.put s.link.part v
    readParts ss a entries

end

end Segment

namespace SegmentTree

def columns (t : SegmentTree) : List Column := Segment.columnsAll (t.first :: t.siblings)

def count (t : SegmentTree) : Nat := Segment.countAll (t.first :: t.siblings)

def write (t : SegmentTree) (v : Value) : Except Error (List Entry) :=
  Segment.writeAll (t.first :: t.siblings) v

def read (t : SegmentTree) (entries : List Entry) : Except RecordError (Value × List Entry) := do
  let (v, entries) ← t.first.read entries
  if t.siblings.isEmpty then pure (← Segment.restored t.first.link v, entries)
  else
    let a ← Segment.begin t.first.link v
    let (a, entries) ← Segment.readParts t.siblings a entries
    pure (← a.build, entries)

end SegmentTree

namespace Registry

/-- Follows a mapper down to its columns, through at most `depth` types. -/
def grow (r : Registry) : Nat → Mapper → String → Except Error SegmentTree
  | 0, m, _ => .error (.endless m.source)
  | depth + 1, m, base => do
    let segment (l : Link) : Except Error Segment :=
      match l.target with
      | .column type => pure (.leaf l ⟨l.columnName base, type⟩)
      | .logical type => do
        let child ← r.lookup type
        let t ← r.grow depth child (l.columnName base)
        pure (.branch l t.first t.siblings)
    let first ← segment m.first
    let siblings ← m.siblings.mapM segment
    pure ⟨first, siblings⟩

/-- The tree of a type for a field whose column is named `base`. -/
def segmentTree (r : Registry) (type : LogicalType) (base : String) : Except Error SegmentTree := do
  let m ← r.lookup type
  r.grow (r.size + 1) m base

end Registry

end Clausal
