import Mathlib.Data.List.Induction
import Mathlib.Data.List.Nodup
import Mathlib.Logic.Function.Basic
import Clausal.Clause.Assignment

/-!
# Assignments that count

Among the assignments that count no path occurs twice, so they all count again, and when no path was given twice
they are the assignments as they were given. For every path the last assignment to it counts, so written into a map
one after the other they leave what all assignments leave.
-/

namespace Clausal.Assignment

theorem put_fresh {as : List Assignment} {a : Assignment} (h : a.path ∉ as.map (·.path)) :
    put as a = as ++ [a] := by
  have hany : (as.any fun b => b.path == a.path) = false := by
    rw [List.any_eq_false]
    intro b hb heq
    exact h (List.mem_map.2 ⟨b, hb, eq_of_beq heq⟩)
  rw [put, hany]
  rfl

theorem mem_put {as : List Assignment} {a b : Assignment} (h : b ∈ put as a) : b = a ∨ b ∈ as := by
  unfold put at h
  split at h
  · obtain ⟨c, hc, rfl⟩ := List.mem_map.1 h
    split
    · exact .inl rfl
    · exact .inr hc
  · rcases List.mem_append.1 h with h | h
    · exact .inr h
    · exact .inl (List.mem_singleton.1 h)

/-- A path that was there keeps its place. -/
theorem map_path_put (as : List Assignment) (a : Assignment) :
    (put as a).map (·.path) =
      if a.path ∈ as.map (·.path) then as.map (·.path) else as.map (·.path) ++ [a.path] := by
  split
  · rename_i hmem
    have hany : (as.any fun b => b.path == a.path) = true := by
      obtain ⟨b, hb, heq⟩ := List.mem_map.1 hmem
      exact List.any_eq_true.2 ⟨b, hb, by rw [heq, beq_self_eq_true]⟩
    rw [put, hany, if_pos rfl, List.map_map]
    apply List.map_congr_left
    intro b _
    rw [Function.comp_apply]
    split
    · rename_i heq
      exact (eq_of_beq heq).symm
    · rfl
  · rename_i hmem
    rw [put_fresh hmem, List.map_append, List.map_singleton]

theorem nodup_put {as : List Assignment} (h : (as.map (·.path)).Nodup) (a : Assignment) :
    ((put as a).map (·.path)).Nodup := by
  rw [map_path_put]
  split
  · exact h
  · rename_i hmem
    rw [List.nodup_append]
    refine ⟨h, List.nodup_cons.2 ⟨List.not_mem_nil, List.nodup_nil⟩, fun p hp q hq => ?_⟩
    rw [List.mem_singleton.1 hq]
    exact fun heq => hmem (heq ▸ hp)

theorem mem_effective {as : List Assignment} {a : Assignment} (h : a ∈ effective as) : a ∈ as := by
  have run : ∀ (as before : List Assignment), a ∈ as.foldl put before → a ∈ before ∨ a ∈ as := by
    intro as
    induction as with
    | nil => exact fun before h => .inl h
    | cons b as ih =>
      intro before h
      rcases ih _ h with h | h
      · rcases mem_put h with rfl | h
        · exact .inr List.mem_cons_self
        · exact .inl h
      · exact .inr (List.mem_cons_of_mem _ h)
  rcases run as [] h with h | h
  · exact absurd h List.not_mem_nil
  · exact h

theorem nodup_effective (as : List Assignment) : ((effective as).map (·.path)).Nodup := by
  have run : ∀ (as before : List Assignment), (before.map (·.path)).Nodup →
      ((as.foldl put before).map (·.path)).Nodup := by
    intro as
    induction as with
    | nil => exact fun before h => h
    | cons a as ih => exact fun before h => ih _ (nodup_put h a)
  exact run as [] List.nodup_nil

theorem effective_of_nodup {as : List Assignment} (h : (as.map (·.path)).Nodup) : effective as = as := by
  have run : ∀ (as before : List Assignment), ((before ++ as).map (·.path)).Nodup →
      as.foldl put before = before ++ as := by
    intro as
    induction as with
    | nil => exact fun before _ => (List.append_nil before).symm
    | cons a as ih =>
      intro before h
      have hfresh : a.path ∉ before.map (·.path) := by
        rw [List.map_append, List.nodup_append] at h
        exact fun hmem => h.2.2 _ hmem _ (List.mem_map.2 ⟨a, List.mem_cons_self, rfl⟩) rfl
      rw [List.foldl_cons, put_fresh hfresh, ih _ (by rwa [List.append_assoc]), List.append_assoc]
      rfl
  exact run as [] h

theorem effective_effective (as : List Assignment) : effective (effective as) = effective as :=
  effective_of_nodup (nodup_effective as)

theorem effective_eq_nil {as : List Assignment} : effective as = [] ↔ as = [] := by
  have put_ne : ∀ (as : List Assignment) (a : Assignment), put as a ≠ [] := by
    intro as a h
    have hpaths := map_path_put as a
    rw [h] at hpaths
    split at hpaths
    · rename_i hmem
      rw [← hpaths] at hmem
      exact absurd hmem List.not_mem_nil
    · simp at hpaths
  have run : ∀ (as before : List Assignment), before ≠ [] → as.foldl put before ≠ [] := by
    intro as
    induction as with
    | nil => exact fun before h => h
    | cons a as ih => exact fun before _ => ih _ (put_ne before a)
  cases as with
  | nil => exact ⟨fun _ => rfl, fun _ => rfl⟩
  | cons a as => exact ⟨fun h => absurd h (run as _ (put_ne [] a)), fun h => by cases h⟩

theorem isEmpty_effective (as : List Assignment) : (effective as).isEmpty = as.isEmpty := by
  rw [Bool.eq_iff_iff, List.isEmpty_iff, List.isEmpty_iff]
  exact effective_eq_nil

/-! ### The last assignment to a path -/

/-- The last assignment to a path. -/
def last? (as : List Assignment) (p : Path) : Option Assignment := as.reverse.find? fun a => a.path == p

/-- A map from paths to values after an assignment has been written into it. -/
def write (m : Path → Option Expr) (a : Assignment) : Path → Option Expr := Function.update m a.path (some a.value)

theorem path_of_last? {as : List Assignment} {p : Path} {a : Assignment} (h : last? as p = some a) : a.path = p := by
  have hfound := List.find?_some h
  exact eq_of_beq hfound

theorem last?_concat (as : List Assignment) (a : Assignment) (p : Path) :
    last? (as ++ [a]) p = if a.path = p then some a else last? as p := by
  rw [last?, List.reverse_concat, List.find?_cons]
  by_cases h : a.path = p
  · rw [if_pos h, beq_iff_eq.2 h]
  · rw [if_neg h, beq_eq_false_iff_ne.2 h]
    rfl

theorem last?_put (as : List Assignment) (a : Assignment) (p : Path) :
    last? (put as a) p = if a.path = p then some a else last? as p := by
  by_cases hmem : a.path ∈ as.map (·.path)
  · obtain ⟨b, hb, hpath⟩ := List.mem_map.1 hmem
    have hany : (as.any fun b => b.path == a.path) = true := List.any_eq_true.2 ⟨b, hb, beq_iff_eq.2 hpath⟩
    -- The new assignment takes the place of all others to its path, so what is found is found at the same place.
    have hplace : ((fun c => c.path == p) ∘ fun c => if c.path == a.path then a else c) =
        fun c : Assignment => c.path == p := by
      funext c
      rw [Function.comp_apply]
      split
      · rename_i heq
        rw [eq_of_beq heq]
      · rfl
    have hmap : last? (put as a) p = (last? as p).map fun c => if c.path == a.path then a else c := by
      rw [put, hany, if_pos rfl, last?, ← List.map_reverse, List.find?_map, hplace]
      rfl
    rw [hmap]
    split
    · rename_i hp
      have hsome : (last? as p).isSome = true :=
        List.find?_isSome.2 ⟨b, List.mem_reverse.2 hb, beq_iff_eq.2 (hpath.trans hp)⟩
      obtain ⟨c, hc⟩ := Option.isSome_iff_exists.1 hsome
      rw [hc, Option.map_some, if_pos (beq_iff_eq.2 ((path_of_last? hc).trans hp.symm))]
    · rename_i hp
      cases hc : last? as p with
      | none => rfl
      | some c =>
        have hother : ¬(c.path == a.path) = true := fun heq => hp ((eq_of_beq heq).symm.trans (path_of_last? hc))
        rw [Option.map_some, if_neg hother]
  · rw [put_fresh hmem, last?_concat]

theorem effective_concat (as : List Assignment) (a : Assignment) : effective (as ++ [a]) = put (effective as) a :=
  List.foldl_concat ..

theorem last?_effective (as : List Assignment) (p : Path) : last? (effective as) p = last? as p := by
  induction as using List.reverseRec with
  | nil => rfl
  | append_singleton as a ih => rw [effective_concat, last?_put, last?_concat, ih]

/-- Where no path occurs twice, every assignment is the last one. -/
theorem last?_of_nodup {as : List Assignment} (h : (as.map (·.path)).Nodup) {a : Assignment} (ha : a ∈ as) :
    last? as a.path = some a := by
  have hsome : (last? as a.path).isSome = true :=
    List.find?_isSome.2 ⟨a, List.mem_reverse.2 ha, beq_self_eq_true _⟩
  obtain ⟨b, hb⟩ := Option.isSome_iff_exists.1 hsome
  have hmem : b ∈ as := List.mem_reverse.1 (List.mem_of_find?_eq_some hb)
  rw [hb, List.inj_on_of_nodup_map h hmem ha (path_of_last? hb)]

private theorem eraseDups_concat (ps : List Path) (p : Path) :
    (ps ++ [p]).eraseDups = if p ∈ ps then ps.eraseDups else ps.eraseDups ++ [p] := by
  rw [List.eraseDups_append]
  split
  · rename_i h
    simp [List.removeAll, h]
  · rename_i h
    simp [List.removeAll, h, List.eraseDups_cons]

/-- Every path stands where it occurred first. -/
theorem map_path_effective (as : List Assignment) : (effective as).map (·.path) = (as.map (·.path)).eraseDups := by
  induction as using List.reverseRec with
  | nil => rfl
  | append_singleton as a ih =>
    rw [effective_concat, map_path_put, ih, List.map_append, List.map_singleton, eraseDups_concat]
    exact if_congr List.mem_eraseDups rfl rfl

/-- What a map holds after all assignments have been written into it. -/
theorem foldl_write (as : List Assignment) (m : Path → Option Expr) (p : Path) :
    as.foldl write m p = ((last? as p).map fun a => some a.value).getD (m p) := by
  induction as using List.reverseRec with
  | nil => rfl
  | append_singleton as a ih =>
    rw [List.foldl_concat, last?_concat, write]
    by_cases h : a.path = p
    · subst h
      rw [if_pos rfl, Function.update_self]
      rfl
    · rw [if_neg h, Function.update_of_ne (Ne.symm h), ih]

theorem foldl_write_effective (as : List Assignment) (m : Path → Option Expr) :
    (effective as).foldl write m = as.foldl write m := by
  funext p
  rw [foldl_write, foldl_write, last?_effective]

end Clausal.Assignment
