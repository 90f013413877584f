import Clausal.Proofs.Draft.Paths

/-!
# Recorded runs of drafts

A run of a draft is a list of steps, and what a step adds comes from a closure. A closure asks the scope
for paths and gives something that has no other paths in it; it may add entities, look at the scope and go
on after a refusal, but it cannot make a path up. The steps of a run are performed by the operations on
drafts, and next to that it is noted what they add. Every path is noted as it was asked for, with the number
of its handle in the place of the alias, and choosing an alias leaves the noted paths alone.
-/

namespace Clausal

/-- What is asked of a scope: a field of an entity, or the whole entity. -/
structure Reference where
  handle : Handle
  field : Option String
  deriving DecidableEq

namespace Reference

/-- The path that the scope gives. -/
def ask (r : Reference) : ScopeM Path :=
  match r.field with
  | some f => Scope.path r.handle f
  | none => Path.ofEntity <$> Scope.aliasOf r.handle

/-- The path with the number of the handle in the place of the alias. -/
def symbol (r : Reference) : Path := ⟨some (toString r.handle.index), r.field.toList⟩

def symbolic (r : Reference) : ScopeM Path := (fun _ => r.symbol) <$> r.ask

theorem field_eq_ask (h : Handle) (name : String) :
    Scope.field h name = Expr.field <$> ask ⟨h, some name⟩ := rfl

theorem whole_eq_ask (h : Handle) : Scope.whole h = Expr.field <$> ask ⟨h, none⟩ := by
  rw [Scope.whole, ask, Functor.map_map]
  rfl

end Reference

/-- Puts the aliases of entities in the place of their numbers. -/
def Path.spell (refs : List EntityRef) (p : Path) : Path :=
  match (p.qualifier.bind String.toNat?).bind fun i => refs[i]? with
  | some e => ⟨e.aliasName, p.segments⟩
  | none => p

/-- A computation in a scope, with the references that have been granted so far. -/
inductive Closure (α : Type) [HasPaths α] : List Reference → Type where
  | result {granted : List Reference} (x : α) (asked : ∀ p ∈ paths x, ∃ r ∈ granted, p = r.symbol) :
      Closure α granted
  | fail {granted : List Reference} (e : Error) : Closure α granted
  | ask {granted : List Reference} (r : Reference) (next : Closure α (r :: granted))
      (refused : Error → Closure α granted) : Closure α granted
  | bind {granted : List Reference} (e : Entity) (next : Handle → Closure α granted) : Closure α granted
  | look {granted : List Reference} (next : Scope → Closure α granted) : Closure α granted

namespace Closure

variable {α : Type} [HasPaths α]

/-- What a closure gives, with the paths that it got from the scope. -/
def spelled {granted : List Reference} : Closure α granted → (Path → Path) → ScopeM α
  | result x _, given => pure (mapPaths given x)
  | fail e, _ => throw e
  | ask r next refused, given => fun s =>
    match r.ask s with
    | (.ok p, s) => next.spelled (fun q => if q = r.symbol then p else given q) s
    | (.error e, s) => (refused e).spelled given s
  | bind e next, given => do (next (← Scope.bind e)).spelled given
  | look next, given => fun s => (next s).spelled given s

/-- What a closure gives, with the symbols of what it asked for. -/
def symbolic {granted : List Reference} : Closure α granted → ScopeM α
  | result x _ => pure x
  | fail e => throw e
  | ask r next refused => fun s =>
    match r.ask s with
    | (.ok _, s) => next.symbolic s
    | (.error e, s) => (refused e).symbolic s
  | bind e next => do (next (← Scope.bind e)).symbolic
  | look next => fun s => (next s).symbolic s

/-- The entities that a closure adds, with the handles that it got for them. -/
def bindings {granted : List Reference} : Closure α granted → Scope → List (Handle × Entity)
  | result .., _ | fail _, _ => []
  | ask r next refused, s =>
    match r.ask s with
    | (.ok _, s) => next.bindings s
    | (.error e, s) => (refused e).bindings s
  | bind e next, s =>
    match Scope.bind e s with
    | (.ok h, s) => (h, e) :: (next h).bindings s
    | (.error _, _) => []
  | look next, s => (next s).bindings s

/-- What a closure gives to an operation. -/
def run (c : Closure α []) : ScopeM α := c.spelled id

end Closure

/-- The entity that a step adds, with the handle that it got for it. -/
def Scope.binding (e : Entity) (s : Scope) : List (Handle × Entity) :=
  match Scope.bind e s with
  | (.ok h, _) => [(h, e)]
  | (.error _, _) => []

/-- The entities that the steps of a run add, one step after the other. -/
def Draft.bindings {α σ : Type} (perform : Draft α → σ → Except Error (Draft α))
    (added : σ → Scope → List (Handle × Entity)) : Draft α → List σ → List (Handle × Entity)
  | _, [] => []
  | d, t :: steps =>
    added t d.scope ++
      match perform d t with
      | .ok d => bindings perform added d steps
      | .error _ => []

inductive Query.Step where
  | bind (e : Entity)
  | setAlias (h : Handle) (aliasName : String)
  | distinct
  | values (c : Closure (List Expr) [])
  | construct (name : String) (c : Closure (List Expr) [])
  | restrict (c : Closure Expr [])
  | group (c : Closure (List Path) [])
  | restrictGroups (c : Closure Expr [])
  | order (c : Closure (List OrderTerm) [])
  | limit (n : UInt64)
  | offset (n : UInt64)

namespace Query

def perform (d : Draft Query) : Step → Except Error (Draft Query)
  | .bind e => d.bind e
  | .setAlias h a => d.setAlias h a
  | .distinct => .ok (distinct d)
  | .values c => values d c.run
  | .construct name c => construct d name c.run
  | .restrict c => restrict d c.run
  | .group c => group d c.run
  | .restrictGroups c => restrictGroups d c.run
  | .order c => order d c.run
  | .limit n => .ok (setLimit d n)
  | .offset n => .ok (setOffset d n)

/-- What is noted of a step: the last selection, and all conditions, groups and orderings in their order. -/
def note (d : Draft Query) : Step → Except Error (Draft Query)
  | .bind e => d.edit (Scope.bind e) fun _ q => q
  | .setAlias h a => d.edit (Scope.setAlias h a) fun _ q => q
  | .distinct => .ok ⟨d.scope, { d.parts with projection := ⟨true, d.parts.projection.selection⟩ }⟩
  | .values c => d.edit c.symbolic fun es q => { q with projection := ⟨q.projection.distinct, .values es⟩ }
  | .construct name c =>
    d.edit c.symbolic fun es q => { q with projection := ⟨q.projection.distinct, .construct name es⟩ }
  | .restrict c => d.edit c.symbolic fun e q => { q with filter := q.filter.and e }
  | .group c => d.edit c.symbolic fun ps q => { q with groupBy := q.groupBy ++ ps }
  | .restrictGroups c => d.edit c.symbolic fun e q => { q with having := q.having.and e }
  | .order c => d.edit c.symbolic fun ts q => { q with orderBy := q.orderBy ++ ts }
  | .limit n => .ok ⟨d.scope, { d.parts with limit := some n }⟩
  | .offset n => .ok ⟨d.scope, { d.parts with offset := some n }⟩

def Step.bindings : Step → Scope → List (Handle × Entity)
  | bind e, s => s.binding e
  | values c, s | construct _ c, s | order c, s | group c, s | restrict c, s | restrictGroups c, s => c.bindings s
  | setAlias .., _ | distinct, _ | limit _, _ | offset _, _ => []

def body (q : Query) (sources : Sources) : Body :=
  .select ⟨q.projection, sources, q.filter, q.groupBy, q.having, q.orderBy, q.limit, q.offset⟩

end Query

/-- A step of an insertion. Values are computed before they are assigned. -/
inductive Insertion.Step where
  | bind (e : Entity)
  | setAlias (h : Handle) (aliasName : String)
  | value (field : String) (c : Closure Expr [])
  | valuesOf (fields : List String) (c : Closure (List Expr) [])

namespace Insertion

def perform (d : Draft Insertion) : Step → Except Error (Draft Insertion)
  | .bind e => d.bind e
  | .setAlias h a => d.setAlias h a
  | .value field c => do
    let (v, d) ← d.evaluate c.run
    Insertion.value d field v
  | .valuesOf fields c => do
    let (vs, d) ← d.evaluate c.run
    Insertion.valuesOf d (fields.zip vs)

def noteValue (d : Draft Insertion) (field : String) (v : Expr) : Except Error (Draft Insertion) :=
  d.edit (Reference.symbolic ⟨.primary, some field⟩) fun p i => { i with values := i.values ++ [⟨p, v⟩] }

/-- What is noted of a step: all values in their order. -/
def note (d : Draft Insertion) : Step → Except Error (Draft Insertion)
  | .bind e => d.edit (Scope.bind e) fun _ i => i
  | .setAlias h a => d.edit (Scope.setAlias h a) fun _ i => i
  | .value field c => do
    let (v, d) ← d.evaluate c.symbolic
    noteValue d field v
  | .valuesOf fields c => do
    let (vs, d) ← d.evaluate c.symbolic
    (fields.zip vs).foldlM (fun d v => noteValue d v.1 v.2) d

def Step.bindings : Step → Scope → List (Handle × Entity)
  | bind e, s => s.binding e
  | setAlias .., _ => []
  | value _ c, s | valuesOf _ c, s => c.bindings s

end Insertion

inductive Change.Step where
  | bind (e : Entity)
  | setAlias (h : Handle) (aliasName : String)
  | set (field : String) (c : Closure Expr [])
  | restrict (c : Closure Expr [])

namespace Change

def perform (d : Draft Change) : Step → Except Error (Draft Change)
  | .bind e => d.bind e
  | .setAlias h a => d.setAlias h a
  | .set field c => Change.set d field c.run
  | .restrict c => Change.restrict d c.run

/-- What is noted of a step: all assignments and conditions in their order. -/
def note (d : Draft Change) : Step → Except Error (Draft Change)
  | .bind e => d.edit (Scope.bind e) fun _ x => x
  | .setAlias h a => d.edit (Scope.setAlias h a) fun _ x => x
  | .set field c =>
    d.edit (do return ⟨← Reference.symbolic ⟨.primary, some field⟩, ← c.symbolic⟩) fun a x =>
      { x with assignments := x.assignments ++ [a] }
  | .restrict c => d.edit c.symbolic fun e x => { x with filter := x.filter.and e }

def Step.bindings : Step → Scope → List (Handle × Entity)
  | bind e, s => s.binding e
  | setAlias .., _ => []
  | set field c, s =>
    match Reference.ask ⟨.primary, some field⟩ s with
    | (.ok _, s) => c.bindings s
    | (.error _, _) => []
  | restrict c, s => c.bindings s

end Change

inductive Removal.Step where
  | bind (e : Entity)
  | setAlias (h : Handle) (aliasName : String)
  | restrict (c : Closure Expr [])

namespace Removal

def perform (d : Draft Removal) : Step → Except Error (Draft Removal)
  | .bind e => d.bind e
  | .setAlias h a => d.setAlias h a
  | .restrict c => Removal.restrict d c.run

/-- What is noted of a step: all conditions in their order. -/
def note (d : Draft Removal) : Step → Except Error (Draft Removal)
  | .bind e => d.edit (Scope.bind e) fun _ r => r
  | .setAlias h a => d.edit (Scope.setAlias h a) fun _ r => r
  | .restrict c => d.edit c.symbolic fun e r => ⟨r.filter.and e⟩

def Step.bindings : Step → Scope → List (Handle × Entity)
  | bind e, s => s.binding e
  | setAlias .., _ => []
  | restrict c, s => c.bindings s

end Removal

/-- A run of a draft, from its primary entity to its last step. -/
inductive Run where
  | query (e : Entity) (steps : List Query.Step)
  | insertion (mode : InsertMode) (e : Entity) (steps : List Insertion.Step)
  | change (e : Entity) (steps : List Change.Step)
  | removal (e : Entity) (steps : List Removal.Step)

namespace Run

def build : Run → Except Error Statement
  | query e steps => do Query.build (← steps.foldlM Query.perform (Query.draft e))
  | insertion mode e steps => do
    Insertion.build (← steps.foldlM Insertion.perform (Insertion.draft mode e))
  | change e steps => do Change.build (← steps.foldlM Change.perform (Change.draft e))
  | removal e steps => do Removal.build (← steps.foldlM Removal.perform (Removal.draft e))

/-- The body with symbols for paths, and all entities with the aliases that they have in the end. -/
def record : Run → Except Error (Body × List EntityRef)
  | query e steps => do
    let d ← steps.foldlM Query.note (Query.draft e)
    return (d.parts.body (← d.scope.sources), ← d.scope.finish)
  | insertion mode e steps => do
    let d ← steps.foldlM Insertion.note (Insertion.draft mode e)
    return (.insert ⟨d.parts.mode, ← d.scope.target, d.parts.values⟩, ← d.scope.finish)
  | change e steps => do
    let d ← steps.foldlM Change.note (Change.draft e)
    return (.update ⟨← d.scope.target, d.parts.assignments, d.parts.filter⟩, ← d.scope.finish)
  | removal e steps => do
    let d ← steps.foldlM Removal.note (Removal.draft e)
    return (.delete ⟨← d.scope.sources, d.parts.filter⟩, ← d.scope.finish)

/-- The primary entity and those that are added, in their order and with the handles that they got. -/
def bindings : Run → List (Handle × Entity)
  | query e steps => (.primary, e) :: (Query.draft e).bindings Query.perform Query.Step.bindings steps
  | insertion mode e steps =>
    (.primary, e) :: (Insertion.draft mode e).bindings Insertion.perform Insertion.Step.bindings steps
  | change e steps => (.primary, e) :: (Change.draft e).bindings Change.perform Change.Step.bindings steps
  | removal e steps => (.primary, e) :: (Removal.draft e).bindings Removal.perform Removal.Step.bindings steps

/-- The entities that the statement has. An insertion and a change have a target and no others. -/
def held : Run → List EntityRef → List EntityRef
  | query .., refs | removal .., refs => refs
  | insertion .., refs | change .., refs => refs.take 1

end Run

end Clausal
