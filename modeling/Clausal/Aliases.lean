import Clausal.Dictionary
import Clausal.Schema.Entity
import Clausal.Text.Lower

/-!
# Aliases

The aliases of one statement and the entities they stand for. An alias stands for one entity only. A
new alias is the shortest beginning of the entity's name, in lower case, that is still free; when all
are taken, the whole name with a number after it.
-/

namespace Clausal

/-- The entity behind every alias. -/
abbrev Aliases := Dictionary Entity

namespace Aliases

def bind (m : Aliases) (name : String) (e : Entity) : Except Error Aliases :=
  if m.contains name then .error (.duplicateAlias name) else .ok (m.insert name e)

/-- How many numbers are tried after a name. -/
def suffixes : Nat := 100

/-- The beginnings of a text, shortest first, without the empty one. -/
def beginnings : List Char → List (List Char)
  | [] => []
  | c :: cs => [c] :: (beginnings cs).map (c :: ·)

/-- The aliases that are tried for an entity's name, in order. -/
def candidates (name : String) : List String :=
  let whole := Text.lower name
  (beginnings whole.toList).map String.ofList
    ++ (List.range suffixes).map fun i => whole ++ toString i

def fresh (m : Aliases) (name : String) : Except Error String :=
  match (candidates name).find? fun a => !m.contains a with
  | some a => .ok a
  | none => .error (.aliasSpaceExhausted name)

end Aliases

end Clausal
