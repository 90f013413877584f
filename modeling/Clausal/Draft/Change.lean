import Clausal.Draft.Basic
import Clausal.Statement.Basic

/-!
# Drafts of changes

Drafts of the statements that insert, change and remove rows. Values are assigned to fields of the
primary entity.
-/

namespace Clausal

/-- An insertion without its target. -/
structure Insertion where
  mode : InsertMode
  values : List Assignment

/-- A change of rows without its target. -/
structure Change where
  assignments : List Assignment
  filter : Filter

/-- A removal of rows without its sources. -/
structure Removal where
  filter : Filter

namespace Insertion

instance : Renamable Insertion where
  rename old new i := { i with values := i.values.map (Assignment.rename old new) }

def draft (mode : InsertMode) (e : Entity) : Draft Insertion := ⟨.ofEntity e, ⟨mode, []⟩⟩

def value (d : Draft Insertion) (field : String) (value : Expr) : Except Error (Draft Insertion) :=
  d.edit (Scope.path .primary field) fun p i => { i with values := i.values ++ [⟨p, value⟩] }

def valuesOf (d : Draft Insertion) (values : List (String × Expr)) :
    Except Error (Draft Insertion) :=
  values.foldlM (fun d v => Insertion.value d v.1 v.2) d

def build (d : Draft Insertion) : Except Error Statement := do
  let target ← d.scope.target
  Statement.ofBody (.insert ⟨d.parts.mode, target, d.parts.values⟩)

end Insertion

namespace Change

instance : Renamable Change where
  rename old new c :=
    { assignments := c.assignments.map (Assignment.rename old new)
      filter := c.filter.rename old new }

def draft (e : Entity) : Draft Change := ⟨.ofEntity e, ⟨[], .empty⟩⟩

def set (d : Draft Change) (field : String) (value : ScopeM Expr) : Except Error (Draft Change) :=
  d.edit (do return ⟨← Scope.path .primary field, ← value⟩) fun a c =>
    { c with assignments := c.assignments ++ [a] }

def restrict (d : Draft Change) (e : ScopeM Expr) : Except Error (Draft Change) :=
  d.edit e fun e c => { c with filter := c.filter.and e }

def build (d : Draft Change) : Except Error Statement := do
  let target ← d.scope.target
  Statement.ofBody (.update ⟨target, d.parts.assignments, d.parts.filter⟩)

end Change

namespace Removal

instance : Renamable Removal where
  rename old new r := ⟨r.filter.rename old new⟩

def draft (e : Entity) : Draft Removal := ⟨.ofEntity e, ⟨.empty⟩⟩

def restrict (d : Draft Removal) (e : ScopeM Expr) : Except Error (Draft Removal) :=
  d.edit e fun e r => ⟨r.filter.and e⟩

def build (d : Draft Removal) : Except Error Statement := do
  let sources ← d.scope.sources
  Statement.ofBody (.delete ⟨sources, d.parts.filter⟩)

end Removal

end Clausal
