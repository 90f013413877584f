import Clausal.Dictionary
import Clausal.Schema.Entity

/-!
# Catalogs

The entities that are known by the names of their tables.
-/

namespace Clausal

/-- Entities by table name. -/
abbrev Catalog := Dictionary Entity

namespace Catalog

/-- Adds an entity, instead of another one with the same table. -/
def register (c : Catalog) (e : Entity) : Catalog := c.insert e.tableName e

/-- The entity with a table, or an opaque one of that name. -/
def resolve (c : Catalog) (name : String) : Entity := (c.get? name).getD (.opaqueNamed name)

/-- The catalog of a list of entities; a later one takes the place of an earlier one. -/
def ofEntities (es : List Entity) : Catalog := es.foldl register .empty

end Catalog

end Clausal
