import Clausal.Clause.Basic
import Clausal.Mapping.Grouping
import Clausal.Parse.Expr
import Clausal.Schema.Catalog

/-!
# Reading parts of statements

The readers of what several kinds of statement share: paths, bound entities, conditions, orderings and
the columns of a table. What is known of the entities that a text names decides about templates and
groups of columns, but never about what is accepted.
-/

namespace Clausal.Parse

/-- What is known of the entities that a text names. -/
structure Context where
  catalog : Catalog
  /-- How the entities are stored, if this is known. -/
  storage : Option Storage

def Context.empty : Context := ⟨.empty, none⟩

/-- Reads the segments of a path after the first. -/
def moreSegments : List Token → List String × List Token
  | ⟨.symbol .dot, _⟩ :: ⟨.identifier name, _⟩ :: rest =>
    let (segments, rest) := moreSegments rest
    (name :: segments, rest)
  | ts => ([], ts)

/-- Reads a path; a first segment that is a bound alias qualifies it. -/
def path : Parser Path := do
  let first ← identifier
  let rest ← modifyGet fun c =>
    let (segments, ts) := moreSegments c.tokens
    (segments, { c with tokens := ts })
  if ← eatSymbol .dot then unexpected .identifier
  return Path.resolve (← get).aliases ⟨none, first :: rest⟩

def pathList : Parser (List Path) := commaList path

def bindAlias (name : String) (e : Entity) (position : Span) : Parser Unit := do
  let c ← get
  match c.aliases.bind name e with
  | .ok aliases => set { c with aliases }
  | .error error => fail (.rejected error) position

/-- Reads the name of an entity and its alias, if there is one, and binds the alias. -/
def entityRef (catalog : Catalog) : Parser EntityRef := do
  let name ← identifier
  let e := catalog.resolve name
  let introduced ← eatKeyword .as
  let position ← place
  match ← peek with
  | .identifier aliasName =>
    skip
    bindAlias aliasName e position
    return ⟨e, name, some aliasName⟩
  | _ =>
    if introduced then unexpected .identifier
    return ⟨e, name, none⟩

def sources (catalog : Catalog) : Parser Sources := do
  let primary ← entityRef catalog
  let others ← fun c => moreItems (entityRef catalog) c
  return ⟨primary, others⟩

/-- Reads a condition after a keyword, if the keyword is there. -/
def filter (k : Keyword) : Parser Filter := do
  if ← eatKeyword k then
    return Filter.empty.and (← expression)
  else
    return .empty

def integer : Parser UInt64 := do
  match ← peek with
  | .integer n =>
    skip
    return n
  | _ => unexpected .integer

/-- Reads a count after a keyword, if the keyword is there. -/
def count (k : Keyword) : Parser (Option UInt64) := do
  if ← eatKeyword k then
    return some (← integer)
  else
    return none

/-- Reads a list after a keyword and BY, if the keyword is there. -/
def listBy {α : Type} (k : Keyword) (items : Parser (List α)) : Parser (List α) := do
  if ← eatKeyword k then
    keyword .by
    items
  else
    return []

def orderTerm : Parser OrderTerm := do
  let e ← expression
  if ← eatKeyword .desc then
    return ⟨e, .desc⟩
  else
    discard <| eatKeyword .asc
    return ⟨e, .asc⟩

/-- Reads a path, an equals sign and a value. -/
def assignment : Parser Assignment := do
  let p ← path
  symbol .eq
  let value ← expression
  return ⟨p, value⟩

def typeArgument : Parser UInt32 := do
  let position ← place
  let n ← integer
  if n.toNat < UInt32.size then
    return UInt32.ofNat n.toNat
  else
    fail .argumentRange position

/-- Reads the name of a column type and its arguments, if there are any. -/
def columnType : Parser ColumnType := do
  let name ← identifier
  if (← peek) = .symbol .leftParen then
    return .ofParts name (← parenthesized (commaList typeArgument))
  else
    return .ofParts name []

def column : Parser Column := do
  let name ← identifier
  return ⟨name, ← columnType⟩

def constraintKind : Parser Constraint.Kind := do
  if ← eatKeyword .primary then
    keyword .key
    return .primaryKey (← parenthesized (commaList identifier))
  else if ← eatKeyword .unique then
    return .unique (← parenthesized (commaList identifier))
  else if ← eatKeyword .check then
    return .check (← parenthesized expression)
  else
    unexpected .constraint

/-- Reads a constraint after its keyword, or a column. -/
def columnOrConstraint : Parser (Column ⊕ Constraint) := do
  if ← eatKeyword .constraint then
    let name ← identifier
    return .inr ⟨name, ← constraintKind⟩
  else
    return .inl (← column)

/-- The columns of a table as they were read, grouped by field if the fields are known. -/
def columnList (ctx : Context) (e : Entity) (columns : List Column) (constraints : List Constraint) :
    ColumnList :=
  match ctx.storage.bind fun s => s.groups? e columns with
  | some groups => ⟨groups, constraints, false⟩
  | none => ⟨columns.map fun c => ⟨.bare c.name, [c]⟩, constraints, true⟩

def columns (ctx : Context) (e : Entity) : Parser ColumnList := do
  if (← peek) = .symbol .leftParen then
    let items ← parenthesized (commaList columnOrConstraint)
    return columnList ctx e (items.filterMap Sum.getLeft?) (items.filterMap Sum.getRight?)
  else
    return columnList ctx e [] []

end Clausal.Parse
