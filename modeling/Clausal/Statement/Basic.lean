import Clausal.Clause.Basic

/-!
# Statements

A statement is a body, one record of clauses for each kind of statement, together with the aliases that
it binds. A body is sound when no floating-point literal in it is infinite or NaN, which could not be
written, and when no two of its entities share an alias. Only sound bodies become statements.
-/

namespace Clausal

structure Select where
  projection : Projection
  sources : Sources
  filter : Filter
  groupBy : List Path
  having : Filter
  orderBy : List OrderTerm
  limit : Option UInt64
  offset : Option UInt64
  deriving BEq, Repr

structure Insert where
  mode : InsertMode
  target : EntityRef
  values : List Assignment
  deriving BEq, Repr

structure Update where
  target : EntityRef
  assignments : List Assignment
  filter : Filter
  deriving BEq, Repr

structure Delete where
  sources : Sources
  filter : Filter
  deriving BEq, Repr

structure CreateTable where
  target : EntityRef
  columns : ColumnList
  deriving BEq, Repr

structure CreateIndex where
  head : IndexHead
  target : EntityRef
  paths : List Path
  deriving BEq, Repr

/-- The clauses of one statement. -/
inductive Body where
  | select (s : Select)
  | insert (s : Insert)
  | update (s : Update)
  | delete (s : Delete)
  | createTable (s : CreateTable)
  | createIndex (s : CreateIndex)
  deriving BEq, Repr

namespace Body

def kind : Body → String
  | select _ => "select"
  | insert _ => "insert"
  | update _ => "update"
  | delete _ => "delete"
  | createTable _ => "createTable"
  | createIndex _ => "createIndex"

/-- The clauses in the order in which they are written, empty ones included. -/
def clauses : Body → List Clause
  | select s =>
    [.select s.projection, .sources s.sources, .filter s.filter, .groupBy s.groupBy, .having s.having,
     .orderBy s.orderBy, .limit s.limit, .offset s.offset]
  | insert s => [.insert s.mode, .into s.target, .values s.values]
  | update s => [.update s.target, .set s.assignments, .filter s.filter]
  | delete s => [.delete, .sources s.sources, .filter s.filter]
  | createTable s => [.createTable s.target, .columns s.columns]
  | createIndex s => [.createIndex s.head, .on s.target, .indexColumns s.paths]

def checkedExpr? (c : Constraint) : Option Expr :=
  match c.kind with
  | .check e => some e
  | _ => none

def exprs : Body → List Expr
  | select s =>
    s.projection.selection.exprs ++ s.filter.predicates ++ s.having.predicates
      ++ s.orderBy.map (·.expr)
  | insert s => s.values.map (·.value)
  | update s => s.assignments.map (·.value) ++ s.filter.predicates
  | delete s => s.filter.predicates
  | createTable s => s.columns.constraints.filterMap checkedExpr?
  | createIndex _ => []

def entityRefs : Body → List EntityRef
  | select s => s.sources.all
  | insert s => [s.target]
  | update s => [s.target]
  | delete s => s.sources.all
  | createTable s => [s.target]
  | createIndex s => [s.target]

/-- The number in a literal that cannot be written. -/
def nonFinite? : Literal → Option Binary64
  | .float x => if x.isFinite then none else some x
  | _ => none

def firstNonFinite? (b : Body) : Option Binary64 :=
  (b.exprs.flatMap Expr.literals).findSome? nonFinite?

/-- Binds the aliases of the entities that have one. -/
def bindAll (m : Aliases) : List EntityRef → Except Error Aliases
  | [] => .ok m
  | r :: rest =>
    match r.aliasName with
    | none => bindAll m rest
    | some a =>
      match m.bind a r.entity with
      | .ok m => bindAll m rest
      | .error e => .error e

/-- The aliases of a sound body. -/
def check (b : Body) : Except Error Aliases :=
  match b.firstNonFinite? with
  | some x => .error (.nonFiniteFloat x)
  | none => bindAll .empty b.entityRefs

end Body

/-- A sound body and the aliases it binds. -/
structure Statement where
  body : Body
  aliases : Aliases
  sound : body.check = .ok aliases

namespace Statement

def ofBody (b : Body) : Except Error Statement :=
  match h : b.check with
  | .ok m => .ok ⟨b, m, h⟩
  | .error e => .error e

def clauses (s : Statement) : List Clause := s.body.clauses

def shownClauses (s : Statement) : List Clause := s.clauses.filter fun c => !c.isOmitted

instance : BEq Statement := ⟨fun a b => a.body == b.body⟩

end Statement

end Clausal
