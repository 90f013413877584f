import Clausal.Schema.Entity

/-!
# References to entities

An entity as it is bound in one statement: its template, the name it is written under, and its alias.
Two references are equal when they are written in the same way; what is known of the entity behind them
does not matter.
-/

namespace Clausal

structure EntityRef where
  entity : Entity
  /-- The name in the text of the statement. -/
  name : String
  aliasName : Option String
  deriving DecidableEq, Repr

namespace EntityRef

/-- Binds an entity under the name of its table, without an alias. -/
def ofEntity (e : Entity) : EntityRef := ⟨e, e.tableName, none⟩

/-- Equality as written. -/
def equal (a b : EntityRef) : Bool := a.name == b.name && a.aliasName == b.aliasName

instance : BEq EntityRef := ⟨equal⟩

end EntityRef

structure Sources where
  /-- The entity that an unqualified selection is about. -/
  primary : EntityRef
  others : List EntityRef
  deriving BEq, DecidableEq, Repr

def Sources.all (s : Sources) : List EntityRef := s.primary :: s.others

end Clausal
