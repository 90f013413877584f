import Clausal.Draft.Change
import Clausal.Draft.Query
import Clausal.Proofs.Statement.Paths

/-!
# Paths of drafts

Everything that a draft collects has paths in it. Putting one alias in place of another replaces the
paths, in every clause and at every depth.
-/

namespace Clausal

/-- Parts whose aliases change by the replacement of paths. -/
class RenamesPaths (α : Type) extends HasPaths α, Renamable α where
  rename_eq : ∀ (old new : String) (x : α), Renamable.rename old new x = mapPaths (Path.rename old new) x

instance : RenamesPaths Query where
  paths q :=
    paths q.projection.selection ++ paths q.filter ++ paths q.groupBy ++ paths q.having ++ paths q.orderBy
  mapPaths f q :=
    { q with
      projection := { q.projection with selection := mapPaths f q.projection.selection }
      filter := mapPaths f q.filter
      groupBy := mapPaths f q.groupBy
      having := mapPaths f q.having
      orderBy := mapPaths f q.orderBy }
  mapPaths_mapPaths f g q := by simp only [mapPaths_mapPaths]
  mapPaths_congr q h := by
    simp only [List.forall_mem_append] at h
    obtain ⟨⟨⟨⟨selection, filter⟩, group⟩, having_⟩, order⟩ := h
    rw [mapPaths_congr _ selection, mapPaths_congr _ filter, mapPaths_congr _ group,
      mapPaths_congr _ having_, mapPaths_congr _ order]
  rename_eq old new q := by
    simp only [Renamable.rename, Query.rename, Filter.rename_eq_mapPaths]
    rfl

instance : RenamesPaths Insertion where
  paths i := paths i.values
  mapPaths f i := { i with values := mapPaths f i.values }
  mapPaths_mapPaths f g i := by rw [mapPaths_mapPaths]
  mapPaths_congr i h := by rw [mapPaths_congr i.values h]
  rename_eq _ _ _ := rfl

instance : RenamesPaths Change where
  paths c := paths c.assignments ++ paths c.filter
  mapPaths f c := ⟨mapPaths f c.assignments, mapPaths f c.filter⟩
  mapPaths_mapPaths f g c := by simp only [mapPaths_mapPaths]
  mapPaths_congr c h := by
    obtain ⟨assignments, filter⟩ := List.forall_mem_append.1 h
    rw [mapPaths_congr _ assignments, mapPaths_congr _ filter]
  rename_eq old new c := by
    simp only [Renamable.rename, Filter.rename_eq_mapPaths]
    rfl

instance : RenamesPaths Removal where
  paths r := paths r.filter
  mapPaths f r := ⟨mapPaths f r.filter⟩
  mapPaths_mapPaths f g r := by rw [mapPaths_mapPaths]
  mapPaths_congr r h := by rw [mapPaths_congr r.filter h]
  rename_eq old new r := by
    simp only [Renamable.rename, Filter.rename_eq_mapPaths]
    rfl

end Clausal
