import Clausal.Dialect
import Clausal.Json.Shape

/-!
# The JSON form of dialects

The choices of a dialect are a record. What is left out is chosen as in the canonical dialect; the
character that quotes a name is not part of the form.
-/

namespace Clausal

open Json (withDefault)

def SelectAll.tag : SelectAll → String
  | byAlias => "alias"
  | byStar => "star"

namespace Dialect

/-- The entries of a dictionary of strings. -/
def asEntries? : Json → Option (List (String × String))
  | .object fields => fields.mapM fun (key, j) => j.asString?.map fun value => (key, value)
  | _ => none

def ofJson? (j : Json) : Option Dialect := do
  let fields ← j.asRecord? ["name", "selectAll", "aliasKeyword", "typeOverrides"]
  let name ← withDefault fields "name" configured.name Json.asString?
  let selectAll ← withDefault fields "selectAll" configured.selectAll
    (Json.asTag? .strict [("alias", SelectAll.byAlias), ("star", .byStar)])
  let aliasKeyword ← withDefault fields "aliasKeyword" configured.aliasKeyword Json.asBool?
  let entries ← withDefault fields "typeOverrides" configured.typeOverrides.entries asEntries?
  pure ⟨name, selectAll, aliasKeyword, .ofList entries, configured.quote⟩

def toJson (d : Dialect) : Json :=
  .object
    [("name", .string d.name), ("selectAll", .string d.selectAll.tag),
     ("aliasKeyword", .bool d.aliasKeyword),
     ("typeOverrides", .object (d.typeOverrides.entries.map fun e => (e.1, .string e.2)))]

end Dialect

end Clausal
