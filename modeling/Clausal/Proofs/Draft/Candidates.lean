import Clausal.Aliases
import Mathlib.Data.List.Nodup
import Mathlib.Tactic.Common

/-!
# The aliases that are tried

The aliases that are tried for an entity are all different: the beginnings of its name differ in length, and are no
longer than the name, to which the others add a number. So there is a free one as long as fewer aliases are bound than
are tried, and it takes as many bound aliases to be without one.
-/

namespace Clausal.Aliases

/-! ### What is tried -/

/-- The beginnings of a text, one for each of its characters. -/
theorem beginnings_eq_map (cs : List Char) :
    beginnings cs = (List.range cs.length).map fun i => cs.take (i + 1) := by
  induction cs with
  | nil => rfl
  | cons c cs ih =>
    rw [beginnings, ih, List.length_cons, List.range_succ_eq_map, List.map_cons, List.map_map, List.map_map]
    rfl

theorem candidates_eq (name : String) :
    candidates name =
      ((List.range (Text.lower name).length).map fun i => String.ofList ((Text.lower name).toList.take (i + 1))) ++
        (List.range 100).map fun i => Text.lower name ++ toString i := by
  rw [candidates, beginnings_eq_map, List.map_map, String.length_toList]
  rfl

theorem length_candidates (name : String) : (candidates name).length = (Text.lower name).length + 100 := by
  rw [candidates_eq, List.length_append, List.length_map, List.length_map, List.length_range, List.length_range]

private theorem length_beginning {text : String} {i : Nat} (hi : i < text.length) :
    (String.ofList (text.toList.take (i + 1))).length = i + 1 := by
  rw [String.length_ofList, List.length_take, String.length_toList]
  exact Nat.min_eq_left hi

private theorem nodup_beginnings (text : String) :
    ((List.range text.length).map fun i => String.ofList (text.toList.take (i + 1))).Nodup := by
  refine List.Nodup.map_on (fun i hi j hj same => ?_) List.nodup_range
  have lengths := congrArg String.length same
  rw [length_beginning (List.mem_range.1 hi), length_beginning (List.mem_range.1 hj)] at lengths
  exact Nat.succ.inj lengths

private theorem nodup_numbered (text : String) (n : Nat) :
    ((List.range n).map fun i => text ++ toString i).Nodup := by
  refine List.Nodup.map_on (fun i _ j _ same => ?_) List.nodup_range
  have digits : Nat.toDigits 10 i = Nat.toDigits 10 j := by
    rw [← Nat.toList_repr, ← Nat.toList_repr]
    exact congrArg String.toList ((String.append_right_inj text).1 same)
  rw [← Nat.ofDigitChars_ten_toDigits (n := i), digits, Nat.ofDigitChars_ten_toDigits]

/-- No alias is tried twice. -/
theorem nodup_candidates (name : String) : (candidates name).Nodup := by
  rw [candidates_eq]
  refine (nodup_beginnings _).append (nodup_numbered _ _) fun a beginning numbered => ?_
  obtain ⟨i, hi, rfl⟩ := List.mem_map.1 beginning
  obtain ⟨j, -, same⟩ := List.mem_map.1 numbered
  -- a beginning is no longer than the text, and a number has a digit
  have lengths := congrArg String.length same
  have digits : 0 < (toString j).length := Nat.length_repr_pos
  rw [length_beginning (List.mem_range.1 hi), String.length_append] at lengths
  have := List.mem_range.1 hi
  omega

/-! ### What is free -/

/-- The new alias is the first that is free. -/
theorem fresh_eq_ok_iff {m : Aliases} {name a : String} :
    m.fresh name = .ok a ↔ ∃ before after, candidates name = before ++ a :: after ∧
      (∀ b ∈ before, m.contains b = true) ∧ m.contains a = false := by
  have found : m.fresh name = .ok a ↔ (candidates name).find? (fun a => !m.contains a) = some a := by
    unfold fresh
    split
    · rename_i b hb
      rw [hb, Except.ok.injEq, Option.some.injEq]
    · rename_i none_
      rw [none_]
      exact iff_of_false nofun nofun
  rw [found, List.find?_eq_some_iff_append]
  simp only [Bool.not_eq_true', Bool.not_not]
  constructor
  · rintro ⟨free, before, after, split, taken⟩
    exact ⟨before, after, split, taken, free⟩
  · rintro ⟨before, after, split, taken, free⟩
    exact ⟨free, before, after, split, taken⟩

theorem not_contains_fresh {m : Aliases} {name a : String} (h : m.fresh name = .ok a) : m.contains a = false := by
  obtain ⟨_, _, _, _, free⟩ := fresh_eq_ok_iff.1 h
  exact free

/-- There is none if all are bound, and only then. -/
theorem fresh_eq_error_iff {m : Aliases} {name : String} {x : Error} :
    m.fresh name = .error x ↔ x = .aliasSpaceExhausted name ∧ ∀ a ∈ candidates name, m.contains a = true := by
  unfold fresh
  split
  · rename_i a found
    have free : m.contains a = false := by simpa using List.find?_some found
    refine iff_of_false nofun fun ⟨_, taken⟩ => ?_
    exact absurd (free.symm.trans (taken a (List.mem_of_find?_eq_some found))) nofun
  · rename_i unfound
    rw [List.find?_eq_none] at unfound
    simp only [Bool.not_eq_true', Bool.not_eq_false] at unfound
    rw [Except.error.injEq, eq_comm, and_iff_left unfound]

/-- Fewer bound aliases than there are names leave one of the names free. -/
theorem exists_free {m : Aliases} {names : List String} (distinct : names.Nodup) (few : m.size < names.length) :
    ∃ a ∈ names, m.contains a = false := by
  by_contra! taken
  have bound : names ⊆ m.entries.map (·.1) := fun a ha =>
    (m.mem_keys_iff a).2 (eq_true_of_ne_false (taken a ha))
  have := distinct.length_le_of_subset bound
  rw [List.length_map] at this
  exact absurd few (Nat.not_lt.2 this)

theorem fresh_of_size_lt {m : Aliases} {name : String} (few : m.size < (Text.lower name).length + 100) :
    ∃ a, m.fresh name = .ok a := by
  obtain ⟨a, tried, free⟩ := exists_free (nodup_candidates name) (length_candidates name ▸ few)
  cases outcome : m.fresh name with
  | ok b => exact ⟨b, rfl⟩
  | error x =>
    have taken := (fresh_eq_error_iff.1 outcome).2 a tried
    exact absurd (free.symm.trans taken) nofun

end Clausal.Aliases
