import Clausal.Parse.Statement
import Clausal.Proofs.Expr.WellFormed
import Clausal.Proofs.Statement.Aliases
import Clausal.Proofs.Statement.Paths

/-!
# Well-formed statements

What a statement needs so that it can be written and read back. Names are not empty, lists that are always
written have an item, the type of a column is read from its spelling, and conditions have been folded. Every path
is resolved: its alias is one that the statement binds, or it has none and its first segment is no alias either.
-/

namespace Clausal

/-- The alias of the path is bound, or it has none and does not look as if it had one. -/
def Path.Resolved (m : Aliases) (p : Path) : Prop :=
  match p.qualifier with
  | some a => m.contains a = true
  | none => ∀ s, p.segments.head? = some s → m.contains s = false

/-- The name and the alias are not empty. -/
def EntityRef.WellFormed (e : EntityRef) : Prop := e.name ≠ "" ∧ e.aliasName ≠ some ""

namespace Filter

/-- The filter comes about by adding conditions. -/
def Reached (f : Filter) : Prop := ∃ conditions, f = ofList conditions

def WellFormed (f : Filter) : Prop := f.Reached ∧ ∀ p ∈ f.predicates, p.WellFormed

end Filter

/-- A selection that can be written; a list of values has an item. -/
def Selection.WellFormed : Selection → Prop
  | all => True
  | values es => es ≠ [] ∧ ∀ e ∈ es, e.WellFormed
  | construct name es => name ≠ "" ∧ ∀ e ∈ es, e.WellFormed

theorem Selection.WellFormed.exprs {s : Selection} (h : s.WellFormed) : ∀ e ∈ s.exprs, e.WellFormed := by
  cases s with
  | all => exact fun e he => absurd he List.not_mem_nil
  | values es => exact h.2
  | construct name es => exact h.2

/-- The type is what its spelling alone is read as. -/
def ColumnType.ReadsBack (t : ColumnType) : Prop :=
  ∃ c, Parse.columnType.run (.ofText t.spelling) = .ok (t, c) ∧ c.tokens = []

def Column.WellFormed (c : Column) : Prop := c.name ≠ "" ∧ c.type.ReadsBack

/-- What a constraint demands can be written; a list of columns has an item. -/
def Constraint.Kind.WellFormed : Constraint.Kind → Prop
  | primaryKey names | unique names => names ≠ [] ∧ "" ∉ names
  | check e => e.WellFormed

def Constraint.Kind.conditions : Constraint.Kind → List Expr
  | primaryKey _ | unique _ => []
  | check e => [e]

def Constraint.WellFormed (c : Constraint) : Prop := c.name ≠ "" ∧ c.kind.WellFormed

namespace ColumnList

/-- A list of columns that can be written; every field has a column. -/
def WellFormed (l : ColumnList) : Prop :=
  (∀ g ∈ l.groups, g.columns ≠ [] ∧ ∀ c ∈ g.columns, c.WellFormed) ∧ ∀ c ∈ l.constraints, c.WellFormed

/-- Every field is one column of the same name, in the order in which they were read, and the constraints are
in the order of their names. -/
def AsRead (l : ColumnList) : Prop :=
  l.asWritten = true ∧ (∀ g ∈ l.groups, ∃ c, g = ⟨.bare c.name, [c]⟩) ∧
    l.constraints.Pairwise fun a b => (compare a.name b.name).isLE

end ColumnList

namespace Clause

def WellFormed : Clause → Prop
  | select p => p.selection.WellFormed
  | insert _ | delete | limit _ | offset _ => True
  | update e | createTable e | into e | on e => e.WellFormed
  | createIndex h => h.name ≠ ""
  | sources s => ∀ e ∈ s.all, e.WellFormed
  | filter f | having f => f.WellFormed
  | groupBy ps | indexColumns ps => ∀ p ∈ ps, p.WellFormed
  | orderBy ts => ∀ t ∈ ts, t.expr.WellFormed
  | values as | set as => ∀ a ∈ as, a.path.WellFormed ∧ a.value.WellFormed
  | columns l => l.WellFormed

def exprs : Clause → List Expr
  | select ⟨_, .values es⟩ | select ⟨_, .construct _ es⟩ => es
  | filter (.all es) | having (.all es) => es
  | orderBy ts => ts.map (·.expr)
  | values as | set as => as.map (·.value)
  | columns l => l.constraints.flatMap (·.kind.conditions)
  | _ => []

theorem exprs_select (p : Projection) : (select p).exprs = p.selection.exprs := by
  obtain ⟨distinct, selection⟩ := p
  cases selection <;> rfl

theorem exprs_filter (f : Filter) : (filter f).exprs = f.predicates := by cases f <;> rfl

theorem exprs_having (f : Filter) : (having f).exprs = f.predicates := by cases f <;> rfl

theorem exprs_columns (l : ColumnList) : (columns l).exprs = l.constraints.filterMap Body.checkedExpr? := by
  rw [List.filterMap_eq_flatMap_toList]
  refine List.flatMap_congr fun c _ => ?_
  unfold Body.checkedExpr?
  cases c.kind <;> rfl

end Clause

namespace Body

def assignments : Body → List Assignment
  | insert s => s.values
  | update s => s.assignments
  | _ => []

/-- The body is what is read from its own text: no path is assigned twice, and a table has no alias and its
columns as they were read. -/
structure AsRead (b : Body) : Prop where
  distinct : (b.assignments.map (·.path)).Nodup
  table : ∀ s, b = .createTable s → s.target.aliasName = none ∧ s.columns.AsRead

/-- The expressions of a body are those of its clauses, one clause after the other. -/
theorem exprs_eq_flatMap (b : Body) : b.exprs = b.clauses.flatMap Clause.exprs := by
  cases b with
  | select s =>
    simp only [exprs, clauses, List.flatMap_cons, Clause.exprs_select, Clause.exprs_filter, Clause.exprs_having]
    simp [Clause.exprs]
  | insert s => simp [exprs, clauses, Clause.exprs]
  | update s =>
    simp only [exprs, clauses, List.flatMap_cons, Clause.exprs_filter]
    simp [Clause.exprs]
  | delete s =>
    simp only [exprs, clauses, List.flatMap_cons, Clause.exprs_filter]
    simp [Clause.exprs]
  | createTable s =>
    simp only [exprs, clauses, List.flatMap_cons, Clause.exprs_columns]
    simp [Clause.exprs]
  | createIndex s => simp [exprs, clauses, Clause.exprs]

theorem exprs_of_clause {b : Body} {c : Clause} (hc : c ∈ b.clauses) {e : Expr} (he : e ∈ c.exprs) :
    e ∈ b.exprs := by
  rw [exprs_eq_flatMap]
  exact List.mem_flatMap.2 ⟨c, hc, he⟩

theorem nonFinite?_eq_some {l : Literal} {x : Binary64} :
    nonFinite? l = some x ↔ l = .float x ∧ x.isFinite = false := by
  cases l with
  | float y =>
    rw [nonFinite?, Literal.float.injEq]
    cases hy : y.isFinite with
    | true =>
      refine iff_of_false nofun ?_
      rintro ⟨rfl, hx⟩
      exact absurd (hy.symm.trans hx) nofun
    | false =>
      constructor
      · rintro ⟨⟩
        exact ⟨rfl, hy⟩
      · rintro ⟨rfl, _⟩
        rfl
  | _ => exact iff_of_false nofun (fun h => nomatch h.1)

theorem nonFinite?_eq_none {l : Literal} : nonFinite? l = none ↔ l.IsFinite := by
  cases l with
  | float x =>
    rw [nonFinite?, Literal.IsFinite]
    cases x.isFinite <;> simp
  | _ => exact iff_of_true rfl trivial

/-- A sound body has no literal that cannot be written. -/
theorem isFinite_of_check {b : Body} {m : Aliases} (h : b.check = .ok m) {e : Expr} (he : e ∈ b.exprs)
    {l : Literal} (hl : l ∈ e.literals) : l.IsFinite := by
  have hnone := (check_eq_ok.1 h).1
  exact nonFinite?_eq_none.1 (List.findSome?_eq_none_iff.1 hnone l (List.mem_flatMap.2 ⟨e, he, hl⟩))

end Body

/-- A statement that can be written and read back. -/
structure Statement.WellFormed (s : Statement) : Prop where
  clauses : ∀ c ∈ s.clauses, c.WellFormed
  resolved : ∀ p ∈ paths s.body, p.Resolved s.aliases

end Clausal
