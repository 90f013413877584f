import Clausal.Draft.Scope

/-!
# Drafts

A draft is a statement that is being made: a scope, and the parts that have been added so far. The paths
in the parts are qualified by the aliases of the scope, so they change with an alias.
-/

namespace Clausal

/-- Parts of a statement in which an alias can be put in place of another one. -/
class Renamable (α : Type) where
  /-- Puts the alias `new` in place of the alias `old`. -/
  rename (old new : String) : α → α

structure Draft (α : Type) where
  scope : Scope
  parts : α

namespace Draft

variable {α β : Type}

/-- Computes something in the scope of a draft. -/
def evaluate (d : Draft α) (x : ScopeM β) : Except Error (β × Draft α) := do
  let (b, scope) ← d.scope.run x
  pure (b, { d with scope })

/-- Computes something in the scope of a draft and adds it to the parts. -/
def edit (d : Draft α) (x : ScopeM β) (add : β → α → α) : Except Error (Draft α) := do
  let (b, d) ← d.evaluate x
  pure { d with parts := add b d.parts }

def bind (d : Draft α) (e : Entity) : Except Error (Draft α) := d.edit (Scope.bind e) fun _ => id

/-- Chooses an alias for an entity. Paths with the alias that it had before get the new one. -/
def setAlias [Renamable α] (d : Draft α) (h : Handle) (aliasName : String) :
    Except Error (Draft α) :=
  d.edit (Scope.setAlias h aliasName) fun
    | some released => Renamable.rename released aliasName
    | none => id

end Draft

end Clausal
