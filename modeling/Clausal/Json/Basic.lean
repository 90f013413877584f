import Clausal.Binary64.Layout

/-!
# JSON trees

Whole numbers and floating-point numbers are kept apart, as are the fields of an object in the order
in which they were written. The members of a tree are smaller than the tree, which is what lets a
reader of trees recurse into them.
-/

namespace Clausal

inductive Json where
  | null
  | bool (b : Bool)
  | int (i : Int)
  | float (x : Binary64)
  | string (s : String)
  | array (items : List Json)
  | object (fields : List (String × Json))
  deriving Repr

namespace Json

/-- The value of the first field with a name. -/
def lookup (name : String) : List (String × Json) → Option Json
  | [] => none
  | (key, value) :: rest => if key = name then some value else lookup name rest

def field? (name : String) : Json → Option Json
  | object fields => lookup name fields
  | _ => none

end Json

end Clausal
