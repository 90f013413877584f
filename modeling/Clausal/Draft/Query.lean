import Clausal.Draft.Basic
import Clausal.Statement.Basic

/-!
# Drafts of queries

A query selects the whole primary entity unless something else is selected. Selecting again replaces
what was selected; conditions, groups and orderings add up.
-/

namespace Clausal

/-- A query without its sources. -/
structure Query where
  projection : Projection
  filter : Filter
  groupBy : List Path
  having : Filter
  orderBy : List OrderTerm
  limit : Option UInt64
  offset : Option UInt64

namespace Query

def rename (old new : String) (q : Query) : Query :=
  { q with
    projection :=
      { q.projection with selection := q.projection.selection.mapExprs (Expr.rename old new) }
    filter := q.filter.rename old new
    groupBy := q.groupBy.map (Path.rename old new)
    having := q.having.rename old new
    orderBy := q.orderBy.map fun t => { t with expr := t.expr.rename old new } }

instance : Renamable Query := ⟨rename⟩

def draft (e : Entity) : Draft Query :=
  ⟨.ofEntity e, ⟨⟨false, .all⟩, .empty, [], .empty, [], none, none⟩⟩

/-- Gives equal rows once. -/
def distinct (d : Draft Query) : Draft Query :=
  { d with parts := { d.parts with projection := { d.parts.projection with distinct := true } } }

def select (d : Draft Query) (x : ScopeM Selection) : Except Error (Draft Query) :=
  d.edit x fun selection q => { q with projection := { q.projection with selection } }

def values (d : Draft Query) (es : ScopeM (List Expr)) : Except Error (Draft Query) :=
  select d (Selection.values <$> es)

def construct (d : Draft Query) (name : String) (es : ScopeM (List Expr)) :
    Except Error (Draft Query) :=
  select d (Selection.construct name <$> es)

/-- Adds a condition on rows. -/
def restrict (d : Draft Query) (e : ScopeM Expr) : Except Error (Draft Query) :=
  d.edit e fun e q => { q with filter := q.filter.and e }

def group (d : Draft Query) (ps : ScopeM (List Path)) : Except Error (Draft Query) :=
  d.edit ps fun ps q => { q with groupBy := q.groupBy ++ ps }

/-- Adds a condition on groups. -/
def restrictGroups (d : Draft Query) (e : ScopeM Expr) : Except Error (Draft Query) :=
  d.edit e fun e q => { q with having := q.having.and e }

def order (d : Draft Query) (ts : ScopeM (List OrderTerm)) : Except Error (Draft Query) :=
  d.edit ts fun ts q => { q with orderBy := q.orderBy ++ ts }

def setLimit (d : Draft Query) (n : UInt64) : Draft Query :=
  { d with parts := { d.parts with limit := some n } }

def setOffset (d : Draft Query) (n : UInt64) : Draft Query :=
  { d with parts := { d.parts with offset := some n } }

def build (d : Draft Query) : Except Error Statement := do
  let sources ← d.scope.sources
  let q := d.parts
  Statement.ofBody (.select
    ⟨q.projection, sources, q.filter, q.groupBy, q.having, q.orderBy, q.limit, q.offset⟩)

end Query

end Clausal
