import Clausal.Aliases
import Clausal.Clause.EntityRef
import Clausal.Expr.Basic

/-!
# Scopes

The entities of a statement that is being made, and their aliases. An entity is referred to by its
handle. It gets an alias when one of its fields is first named, or when one is chosen for it; a chosen
alias takes the place of the one before, which is free again. What fails leaves the scope as it was.
-/

namespace Clausal

/-- Refers to an entity of a scope. -/
structure Handle where
  index : Nat
  deriving DecidableEq, Repr

/-- The entity that a statement is made for. -/
def Handle.primary : Handle := ⟨0⟩

structure Scope where
  entities : List EntityRef
  aliases : Aliases

/-- Computes something in a scope. A computation that fails keeps what was done before. -/
abbrev ScopeM := ExceptT Error (StateM Scope)

namespace Scope

def empty : Scope := ⟨[], .empty⟩

/-- Gives an entity of the list an alias. -/
def assign (s : Scope) (h : Handle) (aliasName : String) : Scope :=
  { s with entities := s.entities.modify h.index fun e => { e with aliasName := some aliasName } }

/-- Adds an entity without an alias. -/
def bind (e : Entity) : ScopeM Handle :=
  modifyGet fun s => (⟨s.entities.length⟩, { s with entities := s.entities ++ [.ofEntity e] })

def entity (h : Handle) : ScopeM EntityRef := do
  match (← get).entities[h.index]? with
  | some e => return e
  | none => throw (.unboundHandle h.index)

/-- Binds an alias for the entity behind a handle. -/
def give (h : Handle) (e : EntityRef) (aliasName : String) : ScopeM Unit := do
  let aliases ← (← get).aliases.bind aliasName e.entity
  modify fun s => { s with aliases }.assign h aliasName

/-- The alias of an entity, which is made up if it has none. -/
def aliasOf (h : Handle) : ScopeM String := do
  let e ← entity h
  match e.aliasName with
  | some a => return a
  | none =>
    let a ← (← get).aliases.fresh e.entity.name
    give h e a
    return a

/-- Chooses an alias for an entity, and returns the alias that is free because of it. -/
def setAlias (h : Handle) (aliasName : String) : ScopeM (Option String) := do
  let e ← entity h
  if e.aliasName = some aliasName then return none
  if (← get).aliases.contains aliasName then throw (.duplicateAlias aliasName)
  modify fun s => { s with aliases := e.aliasName.elim s.aliases s.aliases.erase }
  give h e aliasName
  return e.aliasName

def path (h : Handle) (field : String) : ScopeM Path := do
  (← entity h).entity.requireField field
  return .ofField (← aliasOf h) field

def field (h : Handle) (name : String) : ScopeM Expr := return .field (← path h name)

def whole (h : Handle) : ScopeM Expr := return .field (.ofEntity (← aliasOf h))

/-- Sees to it that every entity has an alias. -/
def aliasAll : ScopeM Unit := do
  (List.range (← get).entities.length).forM fun i => discard (aliasOf ⟨i⟩)

/-- Runs a computation that must not fail. -/
def run {α : Type} (s : Scope) (x : ScopeM α) : Except Error (α × Scope) :=
  match x s with
  | (.ok a, s) => .ok (a, s)
  | (.error e, _) => .error e

def ofEntity (e : Entity) : Scope := ⟨[.ofEntity e], .empty⟩

/-- The entities, each with an alias. -/
def finish (s : Scope) : Except Error (List EntityRef) :=
  (s.run aliasAll).map (·.2.entities)

def sources (s : Scope) : Except Error Sources := do
  match ← s.finish with
  | primary :: others => pure ⟨primary, others⟩
  | [] => throw (.unboundHandle Handle.primary.index)

def target (s : Scope) : Except Error EntityRef := do
  return (← s.sources).primary

end Scope

end Clausal
