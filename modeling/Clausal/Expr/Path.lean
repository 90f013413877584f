import Clausal.Aliases

/-!
# Paths

A path names a field, or a field inside a field, and may be qualified by the alias of the entity that
has it. A path of an alias alone names the whole entity. Paths are ordered: those without an alias come
first, then by alias, then by their segments.
-/

namespace Clausal

/-- A reference to a field or an entity. -/
structure Path where
  /-- The alias that qualifies the path. -/
  qualifier : Option String
  /-- The field names, outermost first. -/
  segments : List String
  deriving DecidableEq, Repr

namespace Path

def ofField (qualifier field : String) : Path := ⟨some qualifier, [field]⟩

/-- The path to a field without an alias. -/
def bare (field : String) : Path := ⟨none, [field]⟩

/-- The path to a whole entity. -/
def ofEntity (qualifier : String) : Path := ⟨some qualifier, []⟩

def isEntity (p : Path) : Bool := p.qualifier.isSome && p.segments.isEmpty

def parts (p : Path) : List String := p.qualifier.toList ++ p.segments

def fieldName (p : Path) : String := String.intercalate "." p.segments

def text (p : Path) : String := String.intercalate "." p.parts

instance : Ord Path where
  compare p q := (compare p.qualifier q.qualifier).then (compare p.segments q.segments)

def rename (old new : String) (p : Path) : Path :=
  if p.qualifier = some old then { p with qualifier := some new } else p

/-- Makes a first segment that is an alias the qualifier. -/
def resolve (m : Aliases) (p : Path) : Path :=
  match p with
  | ⟨none, s :: rest⟩ => if m.contains s then ⟨some s, rest⟩ else p
  | _ => p

end Path

end Clausal
