import Mathlib.Data.List.Nodup
import Clausal.Expr.Path

/-!
# Sorting

What sorting by a key leaves as it was: elements of the same key stay in the order in which they were. The keys are
names, paths and positions.
-/

namespace Clausal

/-! ### Keys -/

theorem compare_isLE_total {α : Type} [Ord α] [Std.OrientedOrd α] (a b : α) :
    ((compare a b).isLE || (compare b a).isLE) = true := by
  rw [Std.OrientedOrd.eq_swap (a := b)]
  cases compare a b <;> rfl

instance : Std.TransOrd Path :=
  inferInstanceAs (Std.TransCmp (compareLex (compareOn Path.qualifier) (compareOn Path.segments)))

instance : Std.LawfulEqOrd Path where
  eq_of_compare {p q} h := by
    obtain ⟨hqualifier, hsegments⟩ := Ordering.then_eq_eq.1 h
    exact congrArg₂ Path.mk (Std.LawfulEqCmp.eq_of_compare hqualifier) (Std.LawfulEqCmp.eq_of_compare hsegments)

theorem compare_bare (a b : String) : compare (Path.bare a) (Path.bare b) = compare a b := by
  have hsegments : compare [a] [b] = compare a b := by
    show List.compareLex compare [a] [b] = _
    rw [List.compareLex]
    cases compare a b <;> rfl
  exact hsegments

/-! ### Stability -/

/-- Sorting leaves what it does not tell apart in the order in which it was. -/
theorem pairwise_mergeSort_stable {α : Type} {le : α → α → Bool} {R : α → α → Prop} {xs : List α}
    (htrans : ∀ a b c, le a b = true → le b c = true → le a c = true) (htotal : ∀ a b, (le a b || le b a) = true)
    (hrefl : ∀ a, R a a) (h : xs.Pairwise R) :
    (xs.mergeSort le).Pairwise fun a b => le a b = true ∧ (le b a = true → R a b) := by
  -- The positions stand for the order in which the elements were, and among equal keys they decide.
  rw [← List.mergeSort_zipIdx, List.pairwise_map]
  refine (List.pairwise_mergeSort (List.zipIdxLE_trans htrans) (List.zipIdxLE_total htotal) xs.zipIdx).imp_of_mem ?_
  rintro ⟨a, i⟩ ⟨b, j⟩ ha hb hle
  rw [List.mem_mergeSort, List.mem_zipIdx_iff_getElem?] at ha hb
  rw [List.zipIdxLE] at hle
  split at hle
  · rename_i hab
    refine ⟨hab, fun hba => ?_⟩
    rw [if_pos hba] at hle
    obtain ⟨hi, hxi⟩ : ∃ hi : i < xs.length, xs[i] = a := List.getElem?_eq_some_iff.1 ha
    obtain ⟨hj, hxj⟩ : ∃ hj : j < xs.length, xs[j] = b := List.getElem?_eq_some_iff.1 hb
    subst hxi hxj
    rcases Nat.lt_or_eq_of_le (of_decide_eq_true hle) with hlt | heq
    · exact List.pairwise_iff_getElem.1 h i j hi hj hlt
    · obtain rfl : i = j := heq
      exact hrefl _
  · cases hle

/-- Sorting by a key that tells the elements apart forgets the order in which they were. -/
theorem mergeSort_eq_of_perm {α κ : Type} [Ord κ] [Std.TransOrd κ] [Std.LawfulEqOrd κ] {key : α → κ} {xs ys : List α}
    (h : xs.Perm ys) (hdistinct : (xs.map key).Nodup) :
    xs.mergeSort (fun a b => (compare (key a) (key b)).isLE) = ys.mergeSort fun a b => (compare (key a) (key b)).isLE := by
  have hsorted : ∀ zs : List α, (zs.mergeSort fun a b => (compare (key a) (key b)).isLE).Pairwise
      fun a b => (compare (key a) (key b)).isLE = true := by
    intro zs
    refine List.pairwise_mergeSort (fun a b c => ?_) (fun a b => compare_isLE_total (key a) (key b)) zs
    exact Std.TransOrd.isLE_trans (a := key a) (b := key b) (c := key c)
  refine List.Perm.eq_of_pairwise (fun a b ha hb hab hba => ?_) (hsorted xs) (hsorted ys)
    ((List.mergeSort_perm xs _).trans (h.trans (List.mergeSort_perm ys _).symm))
  rw [List.mem_mergeSort] at ha hb
  have heq : compare (key a) (key b) = .eq := Std.OrientedCmp.isLE_antisymm hab hba
  exact List.inj_on_of_nodup_map hdistinct ha (h.mem_iff.2 hb) (Std.LawfulEqCmp.eq_of_compare heq)

theorem pairwise_positions {α : Type} (xs : List (α × Nat)) :
    (xs.mergeSort fun a b => a.2 ≤ b.2).Pairwise fun a b => a.2 ≤ b.2 := by
  refine (List.pairwise_mergeSort ?_ ?_ xs).imp of_decide_eq_true
  · exact fun a b c hab hbc => decide_eq_true (Nat.le_trans (of_decide_eq_true hab) (of_decide_eq_true hbc))
  · exact fun a b => by simpa using Nat.le_total a.2 b.2

end Clausal
