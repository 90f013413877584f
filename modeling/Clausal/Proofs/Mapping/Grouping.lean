import Clausal.Mapping.Grouping
import Clausal.Proofs.Record.Columns
import Clausal.Proofs.Sorting

/-!
# Grouped columns are the columns as written

Fields claim their columns in the order of their names, and those of one name in the order of their declaration.
The groups are put in the order of declaration and, when they are written, in the order of their paths again. The
second sorting undoes the first, because it leaves groups of one path in the order of declaration; so the columns
come out as they went in.
-/

namespace Clausal

namespace Storage

/-! ### Claims -/

theorem fieldColumns_ne_nil {s : Storage} {f : Field} {columns : List Column} (h : s.fieldColumns f = .ok columns) :
    columns ≠ [] := by
  rw [← s.columns_segmentTree] at h
  obtain ⟨tree, -, rfl⟩ := map_eq_ok.1 h
  rw [tree.columns_eq_cons]
  exact List.cons_ne_nil _ _

/-- What a field claims is the beginning of the list, and not empty. -/
theorem claim?_eq_some {s : Storage} {f : Field} {written rest : List Column} {g : ColumnGroup}
    (h : s.claim? f written = some (g, rest)) :
    g.path = .bare f.name ∧ g.columns ++ rest = written ∧ g.columns ≠ [] := by
  unfold claim? at h
  split at h
  · cases h
  rename_i needed hneeded
  simp only [Option.ite_none_right_eq_some, Option.some.injEq, Prod.mk.injEq] at h
  obtain ⟨hnames, rfl, rfl⟩ := h
  refine ⟨rfl, List.take_append_drop _ _, fun hnil => ?_⟩
  have hempty : written.take needed.length = [] := hnil
  rw [hempty, List.map_nil] at hnames
  exact fieldColumns_ne_nil hneeded (List.map_eq_nil_iff.1 hnames.symm)

/-- All claims together are the whole list, one for each field in the order of the fields. -/
theorem claimAll?_eq_some {s : Storage} {fs : List (Field × Nat)} {written : List Column}
    {gs : List (ColumnGroup × Nat)} (h : s.claimAll? fs written = some gs) :
    gs.flatMap (·.1.columns) = written ∧ (∀ g ∈ gs, g.1.columns ≠ []) ∧
      gs.map (fun g => (g.1.path, g.2)) = fs.map fun f => (.bare f.1.name, f.2) := by
  induction fs generalizing written gs with
  | nil =>
    cases written with
    | nil =>
      cases h
      exact ⟨rfl, fun g hg => absurd hg List.not_mem_nil, rfl⟩
    | cons c cs => cases h
  | cons f fs ih =>
    obtain ⟨f, position⟩ := f
    simp only [claimAll?, Option.bind_eq_bind, Option.bind_eq_some_iff, Prod.exists] at h
    obtain ⟨g, rest, hclaim, groups, hrest, hgs⟩ := h
    cases hgs
    obtain ⟨hpath, happend, hne⟩ := claim?_eq_some hclaim
    obtain ⟨hflat, hall, hmap⟩ := ih hrest
    refine ⟨?_, List.forall_mem_cons.2 ⟨hne, hall⟩, ?_⟩
    · rw [List.flatMap_cons, hflat, happend]
    · rw [List.map_cons, List.map_cons, hmap, hpath]

/-! ### Groups -/

/-- In the order of paths, and for one path in the order of positions. -/
def InOrder (a b : Path × Nat) : Prop := (compare a.1 b.1).isLE = true ∧ ((compare b.1 a.1).isLE = true → a.2 ≤ b.2)

theorem pairwise_zipIdx (fs : List Field) : fs.zipIdx.Pairwise fun a b => a.2 ≤ b.2 := by
  rw [← List.pairwise_map (f := Prod.snd) (R := (· ≤ ·)), List.zipIdx_map_snd]
  exact (List.pairwise_lt_range').imp Nat.le_of_lt

/-- The fields of an entity by name, and those of one name in the order of their declaration. -/
def byName (e : Entity) : List (Field × Nat) := e.fields.zipIdx.mergeSort fun a b => (compare a.1.name b.1.name).isLE

theorem pairwise_byName (e : Entity) : ((byName e).map fun f => (Path.bare f.1.name, f.2)).Pairwise InOrder := by
  rw [List.pairwise_map]
  refine (pairwise_mergeSort_stable (R := fun a b => a.2 ≤ b.2) ?_ ?_ (fun _ => Nat.le_refl _)
    (pairwise_zipIdx e.fields)).imp ?_
  · exact fun a b c => Std.TransOrd.isLE_trans
  · exact fun a b => compare_isLE_total a.1.name b.1.name
  · intro a b h
    simp only [InOrder, compare_bare]
    exact h

theorem nodup_byName (e : Entity) : ((byName e).map (·.2)).Nodup := by
  have hperm : (byName e).Perm e.fields.zipIdx := List.mergeSort_perm _ _
  rw [(hperm.map (·.2)).nodup_iff, List.zipIdx_map_snd]
  exact List.nodup_range'

/-- Groups in the order of their paths are given back when they are put in the order of positions and in that of
their paths again. -/
theorem mergeSort_paths_of_inOrder {gs : List (ColumnGroup × Nat)}
    (horder : (gs.map fun g => (g.1.path, g.2)).Pairwise InOrder) (hnodup : (gs.map (·.2)).Nodup) :
    ((gs.mergeSort fun a b => a.2 ≤ b.2).map (·.1)).mergeSort (fun a b => (compare a.path b.path).isLE) =
      gs.map (·.1) := by
  have hstable : ((gs.mergeSort fun a b => a.2 ≤ b.2).mergeSort fun a b => (compare a.1.path b.1.path).isLE).Pairwise
      fun a b => InOrder (a.1.path, a.2) (b.1.path, b.2) := by
    refine pairwise_mergeSort_stable ?_ ?_ (fun a => Nat.le_refl a.2) (pairwise_positions gs)
    · exact fun a b c => Std.TransOrd.isLE_trans
    · exact fun a b => compare_isLE_total a.1.path b.1.path
  -- Paths alone do not tell the groups apart, but no two groups have one position.
  have hback : (gs.mergeSort fun a b => a.2 ≤ b.2).mergeSort (fun a b => (compare a.1.path b.1.path).isLE) = gs := by
    refine List.Perm.eq_of_pairwise (fun a b ha hb hab hba => ?_) hstable (List.pairwise_map.1 horder)
      ((List.mergeSort_perm _ _).trans (List.mergeSort_perm _ _))
    have ha : a ∈ gs := List.mem_mergeSort.1 (List.mem_mergeSort.1 ha)
    exact List.inj_on_of_nodup_map hnodup ha hb (Nat.le_antisymm (hab.2 hba.1) (hba.2 hab.1))
  rw [← List.map_mergeSort (r := fun a b => (compare a.1.path b.1.path).isLE) fun _ _ _ _ => rfl, hback]

/-- Groups that are written in the order of their paths are the columns as they were read, and there are some. -/
theorem groups?_eq_some {s : Storage} {e : Entity} {written : List Column} {groups : List ColumnGroup}
    (h : s.groups? e written = some groups) :
    (groups.mergeSort fun a b => (compare a.path b.path).isLE).flatMap (·.columns) = written ∧ written ≠ [] := by
  unfold groups? at h
  split at h
  · cases h
  rename_i hopaque
  simp only [Option.bind_eq_bind, Option.bind_eq_some_iff, Option.pure_def, Option.some.injEq] at h
  obtain ⟨gs, hclaims, rfl⟩ := h
  obtain ⟨hflat, hcolumns, hmap⟩ := claimAll?_eq_some hclaims
  have hpositions : gs.map (·.2) = (byName e).map (·.2) := by
    have hsnd := congrArg (List.map Prod.snd) hmap
    rwa [List.map_map, List.map_map] at hsnd
  rw [mergeSort_paths_of_inOrder (hmap ▸ pairwise_byName e) (hpositions ▸ nodup_byName e), List.flatMap_map]
  refine ⟨hflat, fun hnil => hopaque ?_⟩
  -- Every field claims a column, so where none was written there is no field.
  have hgs : gs = [] := by
    cases gs with
    | nil => rfl
    | cons g gs =>
      rw [hnil, List.flatMap_cons] at hflat
      exact absurd (List.append_eq_nil_iff.1 hflat).1 (hcolumns g List.mem_cons_self)
  rw [hgs] at hpositions
  have hlength := congrArg List.length hpositions
  rw [List.length_map, List.length_map, byName, List.length_mergeSort, List.length_zipIdx] at hlength
  exact List.isEmpty_iff.2 (List.length_eq_zero_iff.1 hlength.symm)

/-! ### Columns of fields -/

/-- The columns of a field; none, if its type cannot be stored. -/
def columnsOf (s : Storage) (f : Field) : List Column := (s.fieldColumns f).toOption.getD []

theorem columnsOf_eq {s : Storage} {f : Field} {columns : List Column} (h : s.fieldColumns f = .ok columns) :
    s.columnsOf f = columns := by
  rw [columnsOf, h]
  rfl

theorem claim?_append {s : Storage} {f : Field} {columns : List Column} (h : s.fieldColumns f = .ok columns)
    (rest : List Column) : s.claim? f (columns ++ rest) = some (⟨.bare f.name, columns⟩, rest) := by
  simp only [claim?, h, List.take_left', List.drop_left', if_true]

theorem claimAll?_flatMap {s : Storage} {columns : Field → List Column} {fs : List (Field × Nat)}
    (h : ∀ f ∈ fs, s.fieldColumns f.1 = .ok (columns f.1)) :
    s.claimAll? fs (fs.flatMap fun f => columns f.1) =
      some (fs.map fun f => (⟨.bare f.1.name, columns f.1⟩, f.2)) := by
  induction fs with
  | nil => rfl
  | cons f fs ih =>
    obtain ⟨f, position⟩ := f
    obtain ⟨hf, hfs⟩ := List.forall_mem_cons.1 h
    rw [List.flatMap_cons, claimAll?, claim?_append hf]
    simp only [Option.bind_eq_bind, Option.bind_some, ih hfs]
    rfl

/-- The fields in the order of their declaration are given back when they are put in it again. -/
theorem mergeSort_byName (e : Entity) : (byName e).mergeSort (fun a b => a.2 ≤ b.2) = e.fields.zipIdx := by
  refine List.Perm.eq_of_pairwise (fun a b ha hb hab hba => ?_) (pairwise_positions _) (pairwise_zipIdx _)
    ((List.mergeSort_perm _ _).trans (List.mergeSort_perm _ _))
  have hb : b ∈ byName e := List.mem_mergeSort.2 hb
  exact List.inj_on_of_nodup_map (nodup_byName e) (List.mem_mergeSort.1 ha) hb (Nat.le_antisymm hab hba)

/-- The columns of all fields, in the order of the fields' names, are grouped by field. -/
theorem groups?_of_columns {s : Storage} {e : Entity} {columns : Field → List Column} (hne : e.fields ≠ [])
    (h : ∀ f ∈ e.fields, s.fieldColumns f = .ok (columns f)) {groups : List ColumnGroup}
    (hgroups : groups = e.fields.map fun f => ⟨.bare f.name, columns f⟩) :
    s.groups? e ((groups.mergeSort fun a b => (compare a.path b.path).isLE).flatMap (·.columns)) = some groups := by
  have hfields : (byName e).map (·.1) = e.fields.mergeSort fun a b => (compare a.name b.name).isLE := by
    rw [byName, List.map_mergeSort (s := fun (a b : Field) => (compare a.name b.name).isLE) fun _ _ _ _ => rfl,
      List.zipIdx_map_fst]
  have hwritten : (groups.mergeSort fun a b => (compare a.path b.path).isLE).flatMap (·.columns) =
      (byName e).flatMap fun f => columns f.1 := by
    rw [hgroups,
      ← List.map_mergeSort (r := fun a b => (compare a.name b.name).isLE) fun a _ b _ => by rw [compare_bare],
      ← hfields, List.map_map, List.flatMap_map]
    rfl
  have hclaims : s.claimAll? (byName e) ((byName e).flatMap fun f => columns f.1) =
      some ((byName e).map fun f => (⟨.bare f.1.name, columns f.1⟩, f.2)) := by
    refine claimAll?_flatMap fun f hf => h f.1 ?_
    have hmem : f.1 ∈ (byName e).map (·.1) := List.mem_map_of_mem hf
    rw [hfields] at hmem
    exact List.mem_mergeSort.1 hmem
  have hopaque : ¬ e.isOpaque = true := fun he => hne (List.isEmpty_iff.1 he)
  unfold groups?
  rw [if_neg hopaque, hwritten]
  show (s.claimAll? (byName e) _).bind _ = _
  rw [hclaims, Option.bind_some,
    ← List.map_mergeSort (r := fun a b => decide (a.2 ≤ b.2)) fun _ _ _ _ => rfl, mergeSort_byName, List.map_map,
    hgroups]
  refine congrArg some ?_
  calc e.fields.zipIdx.map _ = (e.fields.zipIdx.map (·.1)).map fun f => ColumnGroup.mk (.bare f.name) (columns f) := by
        rw [List.map_map]
        rfl
    _ = _ := by rw [List.zipIdx_map_fst]

end Storage

end Clausal
