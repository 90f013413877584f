import Clausal.Parse.Fragment
import Clausal.Statement.Basic
import Clausal.Token.Scan

/-!
# Reading statements

A statement begins with a word that tells its kind. Its clauses follow in a fixed order, nothing follows
the last one, and what was read must be sound. The list of a selection stands before the entities it is
about, so its paths are resolved when the entities have been read.
-/

namespace Clausal

namespace Parse

/-- What is selected, before the entities are known. -/
inductive Selected where
  | star
  /-- Everything of the entity with an alias, which stands at a place. -/
  | entity (name : String) (position : Span)
  | given (s : Selection)

def arguments : Parser (List Expr) := do
  symbol .leftParen
  if ← eatSymbol .rightParen then
    return []
  else
    let es ← commaList expression
    symbol .rightParen
    return es

def selected : Parser Selected := do
  let position ← place
  match ← peek with
  | .symbol .star =>
    skip
    return .star
  | .identifier name =>
    skip
    return .entity name position
  | .symbol .leftParen => return .given (.values (← parenthesized (commaList expression)))
  | .keyword .new =>
    skip
    let name ← identifier
    return .given (.construct name (← arguments))
  | _ => unexpected .selection

/-- What is selected from the entities. -/
def resolveSelected (primary : EntityRef) : Selected → Parser Selection
  | .star => return .all
  | .entity name position => do
    unless primary.aliasName = some name do fail (.notPrimary name) position
    return .all
  | .given s => return s.mapExprs (Expr.mapPaths (Path.resolve (← get).aliases))

/-- Reads a query after its first word. -/
def select (ctx : Context) : Parser Body := do
  let distinct ← eatKeyword .distinct
  let list ← selected
  keyword .from
  let entities ← sources ctx.catalog
  let selection ← resolveSelected entities.primary list
  let conditions ← filter .where
  let groupBy ← listBy .group pathList
  let having ← filter .having
  let orderBy ← listBy .order (commaList orderTerm)
  let limit ← count .limit
  let offset ← count .offset
  return .select ⟨⟨distinct, selection⟩, entities, conditions, groupBy, having, orderBy, limit, offset⟩

/-- Reads paths in parentheses and as many values. -/
def insertedValues : Parser (List Assignment) := do
  let opening ← place
  let paths ← parenthesized pathList
  keyword .values
  symbol .leftParen
  let values ← commaList expression
  let closing ← place
  symbol .rightParen
  unless paths.length = values.length do
    fail (.arity paths.length values.length) ⟨opening.start, closing.stop⟩
  return paths.zipWith Assignment.mk values

def insert (ctx : Context) (mode : InsertMode) : Parser Body := do
  keyword .into
  let target ← entityRef ctx.catalog
  if (← peek) = .symbol .leftParen then
    return .insert ⟨mode, target, ← insertedValues⟩
  else
    return .insert ⟨mode, target, []⟩

/-- Reads assignments after SET, if it is there. -/
def assignments : Parser (List Assignment) := do
  if ← eatKeyword .set then
    commaList assignment
  else
    return []

def update (ctx : Context) : Parser Body := do
  let target ← entityRef ctx.catalog
  let set ← assignments
  return .update ⟨target, set, ← filter .where⟩

def delete (ctx : Context) : Parser Body := do
  keyword .from
  let entities ← sources ctx.catalog
  return .delete ⟨entities, ← filter .where⟩

/-- Reads the definition of a table after CREATE TABLE. -/
def createTable (ctx : Context) : Parser Body := do
  let target ← entityRef ctx.catalog
  return .createTable ⟨target, ← columns ctx target.entity⟩

def createIndex (ctx : Context) : Parser Body := do
  let unique ← eatKeyword .unique
  keyword .index
  let name ← identifier
  keyword .on
  let target ← entityRef ctx.catalog
  if (← peek) = .symbol .leftParen then
    return .createIndex ⟨⟨name, unique⟩, target, ← parenthesized pathList⟩
  else
    return .createIndex ⟨⟨name, unique⟩, target, []⟩

def create (ctx : Context) : Parser Body := do
  if ← eatKeyword .table then createTable ctx else createIndex ctx

def body (ctx : Context) : Parser Body := do
  if ← eatKeyword .select then select ctx
  else if ← eatKeyword .insert then insert ctx .insert
  else if ← eatKeyword .upsert then insert ctx .upsert
  else if ← eatKeyword .merge then insert ctx .merge
  else if ← eatKeyword .update then update ctx
  else if ← eatKeyword .delete then delete ctx
  else if ← eatKeyword .create then create ctx
  else unexpected .statement

/-- Reads a body up to the end of the text. -/
def wholeBody (ctx : Context) : Parser Body := do
  let b ← body ctx
  unless (← peek) = .eof do unexpected .endOfText
  return b

end Parse

def Parse.Cursor.ofText (text : String) : Parse.Cursor :=
  ⟨Token.scan text, (Token.endMark text).span.stop, .empty⟩

def Body.parse (ctx : Parse.Context) (text : String) : Except Parse.Failure Body :=
  (Parse.wholeBody ctx (.ofText text)).map (·.1)

/-- The statement that a text stands for, or a failure and its place. -/
def Statement.read (ctx : Parse.Context) (text : String) : Except Parse.Failure Statement :=
  match Body.parse ctx text with
  | .error f => .error f
  | .ok b =>
    match Statement.ofBody b with
    | .ok s => .ok s
    | .error e => .error ⟨.rejected e, ⟨0, (Token.endMark text).span.stop⟩⟩

def Statement.parse (ctx : Parse.Context) (text : String) : Except ParseError Statement :=
  (Statement.read ctx text).mapError (.ofFailure text)

end Clausal
