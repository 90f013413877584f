import Clausal.Proofs.Expr.Paths
import Clausal.Statement.Basic

/-!
# Paths of statements

The clauses of a statement have paths in them, at every depth of their expressions, and the paths can be
replaced.
-/

namespace Clausal

/-- What has paths that can be replaced. -/
class HasPaths (α : Type) where
  paths : α → List Path
  mapPaths : (Path → Path) → α → α
  mapPaths_mapPaths : ∀ (f g : Path → Path) (x : α), mapPaths f (mapPaths g x) = mapPaths (f ∘ g) x
  /-- Only the paths that are there matter. -/
  mapPaths_congr : ∀ {f g : Path → Path} (x : α), (∀ p ∈ paths x, f p = g p) → mapPaths f x = mapPaths g x

export HasPaths (paths mapPaths mapPaths_mapPaths mapPaths_congr)

instance : HasPaths Path where
  paths p := [p]
  mapPaths f := f
  mapPaths_mapPaths _ _ _ := rfl
  mapPaths_congr p h := h p List.mem_cons_self

instance : HasPaths Expr where
  paths := Expr.paths
  mapPaths := Expr.mapPaths
  mapPaths_mapPaths := Expr.mapPaths_mapPaths
  mapPaths_congr := Expr.mapPaths_congr

instance {α : Type} [HasPaths α] : HasPaths (List α) where
  paths xs := xs.flatMap paths
  mapPaths f xs := xs.map (mapPaths f)
  mapPaths_mapPaths f g xs := by
    rw [List.map_map]
    exact List.map_congr_left fun x _ => mapPaths_mapPaths f g x
  mapPaths_congr xs h :=
    List.map_congr_left fun x hx => mapPaths_congr x fun p hp => h p (List.mem_flatMap.2 ⟨x, hx, hp⟩)

instance : HasPaths OrderTerm where
  paths t := t.expr.paths
  mapPaths f t := { t with expr := t.expr.mapPaths f }
  mapPaths_mapPaths f g t := by rw [Expr.mapPaths_mapPaths]
  mapPaths_congr t h := by rw [Expr.mapPaths_congr t.expr h]

instance : HasPaths Assignment where
  paths a := a.path :: a.value.paths
  mapPaths f a := ⟨f a.path, a.value.mapPaths f⟩
  mapPaths_mapPaths f g a := by rw [Expr.mapPaths_mapPaths, Function.comp_apply]
  mapPaths_congr a h := by
    rw [h a.path List.mem_cons_self, Expr.mapPaths_congr a.value fun p hp => h p (List.mem_cons_of_mem _ hp)]

instance : HasPaths Selection where
  paths
    | .all => []
    | .values es | .construct _ es => paths es
  mapPaths f s := s.mapExprs (Expr.mapPaths f)
  mapPaths_mapPaths f g s := by
    cases s with
    | all => rfl
    | values es => exact congrArg Selection.values (mapPaths_mapPaths f g es)
    | construct name es => exact congrArg (Selection.construct name) (mapPaths_mapPaths f g es)
  mapPaths_congr s h := by
    cases s with
    | all => rfl
    | values es => exact congrArg Selection.values (mapPaths_congr es h)
    | construct name es => exact congrArg (Selection.construct name) (mapPaths_congr es h)

theorem Selection.paths_eq (s : Selection) : paths s = paths s.exprs := by
  cases s <;> rfl

instance : HasPaths Filter where
  paths c := paths c.predicates
  mapPaths := Filter.mapPaths
  mapPaths_mapPaths f g c := by
    cases c with
    | unsatisfiable => rfl
    | all ps => exact congrArg Filter.all (mapPaths_mapPaths f g ps)
  mapPaths_congr c h := by
    cases c with
    | unsatisfiable => rfl
    | all ps => exact congrArg Filter.all (mapPaths_congr ps h)

theorem Filter.rename_eq_mapPaths (old new : String) (c : Filter) :
    c.rename old new = c.mapPaths (Path.rename old new) := by
  cases c <;> rfl

theorem Filter.paths_and {c : Filter} {e : Expr} {p : Path} (h : p ∈ paths (c.and e)) :
    p ∈ paths c ∨ p ∈ e.paths := by
  obtain ⟨x, hx, hp⟩ := List.mem_flatMap.1 h
  rcases mem_and hx with hx | hx
  · exact .inl (List.mem_flatMap.2 ⟨x, hx, hp⟩)
  · exact .inr (Expr.paths_simplify (Expr.paths_conjuncts hx hp))

instance : HasPaths Constraint.Kind where
  paths
    | .check e => e.paths
    | .primaryKey _ | .unique _ => []
  mapPaths f
    | .check e => .check (e.mapPaths f)
    | .primaryKey names => .primaryKey names
    | .unique names => .unique names
  mapPaths_mapPaths f g k := by
    cases k with
    | check e => exact congrArg Constraint.Kind.check (Expr.mapPaths_mapPaths f g e)
    | _ => rfl
  mapPaths_congr k h := by
    cases k with
    | check e => exact congrArg Constraint.Kind.check (Expr.mapPaths_congr e h)
    | _ => rfl

instance : HasPaths Constraint where
  paths c := paths c.kind
  mapPaths f c := { c with kind := mapPaths f c.kind }
  mapPaths_mapPaths f g c := by rw [mapPaths_mapPaths]
  mapPaths_congr c h := by rw [mapPaths_congr c.kind h]

/-- The paths of a statement outside of column definitions. -/
instance : HasPaths Body where
  paths
    | .select s =>
      paths s.projection.selection ++ paths s.filter ++ paths s.groupBy ++ paths s.having
        ++ paths s.orderBy
    | .insert s => paths s.values
    | .update s => paths s.assignments ++ paths s.filter
    | .delete s => paths s.filter
    | .createTable s => paths s.columns.constraints
    | .createIndex s => paths s.paths
  mapPaths f
    | .select s => .select
      { s with
        projection := { s.projection with selection := mapPaths f s.projection.selection }
        filter := mapPaths f s.filter
        groupBy := mapPaths f s.groupBy
        having := mapPaths f s.having
        orderBy := mapPaths f s.orderBy }
    | .insert s => .insert { s with values := mapPaths f s.values }
    | .update s => .update { s with assignments := mapPaths f s.assignments, filter := mapPaths f s.filter }
    | .delete s => .delete { s with filter := mapPaths f s.filter }
    | .createTable s => .createTable
      { s with columns := { s.columns with constraints := mapPaths f s.columns.constraints } }
    | .createIndex s => .createIndex { s with paths := mapPaths f s.paths }
  mapPaths_mapPaths f g b := by cases b <;> simp only [mapPaths_mapPaths]
  mapPaths_congr b h := by
    cases b with
    | select s =>
      simp only [List.forall_mem_append] at h
      obtain ⟨⟨⟨⟨selection, filter⟩, group⟩, having_⟩, order⟩ := h
      simp only [mapPaths_congr _ selection, mapPaths_congr _ filter, mapPaths_congr _ group,
        mapPaths_congr _ having_, mapPaths_congr _ order]
    | insert s => simp only [mapPaths_congr s.values h]
    | update s =>
      obtain ⟨assignments, filter⟩ := List.forall_mem_append.1 h
      simp only [mapPaths_congr _ assignments, mapPaths_congr _ filter]
    | delete s => simp only [mapPaths_congr s.filter h]
    | createTable s => simp only [mapPaths_congr s.columns.constraints h]
    | createIndex s => simp only [mapPaths_congr s.paths h]

end Clausal
