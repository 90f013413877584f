import Clausal.Proofs.Results
import Clausal.Statement.Basic

/-!
# Aliases of statements

A statement binds the aliases of its entities, each to its entity, and no others.
-/

namespace Clausal

theorem Aliases.bind_eq_ok_iff {m m' : Aliases} {a : String} {e : Entity} :
    m.bind a e = .ok m' ↔ m.contains a = false ∧ m' = m.insert a e := by
  unfold Aliases.bind
  cases m.contains a <;> simp [eq_comm]

theorem Aliases.contains_insert (m : Aliases) (name a : String) (e : Entity) :
    (m.insert name e).contains a = (decide (name = a) || m.contains a) := by
  rw [Dictionary.contains_eq_isSome, Dictionary.get?_insert, Dictionary.contains_eq_isSome]
  split
  · rename_i h
    rw [decide_eq_true h, Bool.true_or]
    rfl
  · rename_i h
    rw [decide_eq_false h, Bool.false_or]

namespace Body

theorem bindAll_cons {m m' : Aliases} {r : EntityRef} {refs : List EntityRef}
    (h : bindAll m (r :: refs) = .ok m') :
    (r.aliasName = none ∧ bindAll m refs = .ok m') ∨
      ∃ a, r.aliasName = some a ∧ m.contains a = false ∧ bindAll (m.insert a r.entity) refs = .ok m' := by
  rw [bindAll] at h
  split at h
  · rename_i unnamed
    exact .inl ⟨unnamed, h⟩
  · rename_i a named
    split at h
    · rename_i m₁ bound
      obtain ⟨free, rfl⟩ := Aliases.bind_eq_ok_iff.1 bound
      exact .inr ⟨a, named, free, h⟩
    · cases h

/-- Binding the aliases of entities keeps those that were bound before. -/
theorem bindAll_kept {m m' : Aliases} {refs : List EntityRef} (h : bindAll m refs = .ok m') {a : String}
    {e : Entity} (he : m.get? a = some e) : m'.get? a = some e := by
  induction refs generalizing m with
  | nil =>
    cases h
    exact he
  | cons r refs ih =>
    rcases bindAll_cons h with ⟨_, h⟩ | ⟨b, _, free, h⟩
    · exact ih h he
    · have hne : b ≠ a := by
        rintro rfl
        rw [Dictionary.contains_eq_isSome, he] at free
        cases free
      exact ih h (by rw [Dictionary.get?_insert, if_neg hne, he])

theorem bindAll_bound {m m' : Aliases} {refs : List EntityRef} (h : bindAll m refs = .ok m')
    {r : EntityRef} (hr : r ∈ refs) {a : String} (ha : r.aliasName = some a) :
    m'.get? a = some r.entity := by
  induction refs generalizing m with
  | nil => exact absurd hr List.not_mem_nil
  | cons s refs ih =>
    rcases List.mem_cons.1 hr with rfl | hr
    · rcases bindAll_cons h with ⟨unnamed, _⟩ | ⟨b, named, _, h⟩
      · exact absurd (unnamed.symm.trans ha) (Option.some_ne_none a).symm
      · cases named.symm.trans ha
        exact bindAll_kept h (by rw [Dictionary.get?_insert, if_pos rfl])
    · rcases bindAll_cons h with ⟨_, h⟩ | ⟨_, _, _, h⟩
      · exact ih h hr
      · exact ih h hr

/-- What is bound in the end was bound before, or is the alias of one of the entities. -/
theorem contains_bindAll {m m' : Aliases} {refs : List EntityRef} (h : bindAll m refs = .ok m') (a : String) :
    m'.contains a = true ↔ m.contains a = true ∨ some a ∈ refs.map (·.aliasName) := by
  induction refs generalizing m with
  | nil =>
    cases h
    simp
  | cons r refs ih =>
    rw [List.map_cons, List.mem_cons]
    rcases bindAll_cons h with ⟨hnone, h⟩ | ⟨b, hb, -, h⟩
    · rw [ih h, hnone]
      simp
    · rw [ih h, hb, Aliases.contains_insert, Bool.or_eq_true, decide_eq_true_iff, Option.some_inj, eq_comm (a := a)]
      exact or_assoc.trans or_left_comm

/-- Aliases that are free and apart from each other can all be bound. -/
theorem bindAll_of_distinct {m : Aliases} {refs : List EntityRef}
    (free : ∀ a ∈ refs.filterMap (·.aliasName), m.contains a = false)
    (distinct : (refs.filterMap (·.aliasName)).Nodup) : ∃ m', bindAll m refs = .ok m' := by
  induction refs generalizing m with
  | nil => exact ⟨m, rfl⟩
  | cons r refs ih =>
    rw [bindAll]
    cases named : r.aliasName with
    | none =>
      rw [List.filterMap_cons_none named] at free distinct
      exact ih free distinct
    | some a =>
      rw [List.filterMap_cons_some named] at free distinct
      obtain ⟨unused, distinct⟩ := List.nodup_cons.1 distinct
      have bound : m.bind a r.entity = .ok (m.insert a r.entity) :=
        Aliases.bind_eq_ok_iff.2 ⟨free a List.mem_cons_self, rfl⟩
      simp only [bound]
      refine ih (fun b hb => ?_) distinct
      have hne : a ≠ b := fun h => unused (h ▸ hb)
      rw [Aliases.contains_insert, decide_eq_false hne, Bool.false_or]
      exact free b (List.mem_cons_of_mem _ hb)

theorem check_eq_ok {b : Body} {m : Aliases} :
    b.check = .ok m ↔ b.firstNonFinite? = none ∧ bindAll .empty b.entityRefs = .ok m := by
  unfold check
  cases b.firstNonFinite? with
  | some x => exact iff_of_false nofun (fun h => nomatch h.1)
  | none => exact (and_iff_right rfl).symm

end Body

namespace Statement

theorem firstNonFinite?_body (s : Statement) : s.body.firstNonFinite? = none := (Body.check_eq_ok.1 s.sound).1

theorem bindAll_entityRefs (s : Statement) : Body.bindAll .empty s.body.entityRefs = .ok s.aliases :=
  (Body.check_eq_ok.1 s.sound).2

/-- The alias of an entity of a statement is bound to that entity. -/
theorem get?_alias {s : Statement} {r : EntityRef} (hr : r ∈ s.body.entityRefs) {a : String}
    (ha : r.aliasName = some a) : s.aliases.get? a = some r.entity :=
  Body.bindAll_bound s.bindAll_entityRefs hr ha

theorem body_ofBody {b : Body} {s : Statement} (h : ofBody b = .ok s) : s.body = b := by
  unfold ofBody at h
  split at h
  · cases h
    rfl
  · cases h

theorem ofBody_eq_ok {b : Body} {m : Aliases} (h : b.check = .ok m) : ofBody b = .ok ⟨b, m, h⟩ := by
  unfold ofBody
  split
  · rename_i m' hm'
    cases hm'.symm.trans h
    rfl
  · rename_i error herror
    cases herror.symm.trans h

theorem ofBody_eq_error {b : Body} {e : Error} (h : b.check = .error e) : ofBody b = .error e := by
  unfold ofBody
  split
  · rename_i m hm
    cases hm.symm.trans h
  · rename_i error herror
    cases herror.symm.trans h
    rfl

/-- Where no two entities share an alias, no alias is found to be a duplicate. -/
theorem ofBody_ne_duplicate {b : Body} (distinct : (b.entityRefs.filterMap (·.aliasName)).Nodup)
    (a : String) : ofBody b ≠ .error (.duplicateAlias a) := by
  obtain ⟨m, bound⟩ := Body.bindAll_of_distinct (m := .empty) (fun _ _ => rfl) distinct
  cases infinite : b.firstNonFinite? with
  | none =>
    rw [ofBody_eq_ok (Body.check_eq_ok.2 ⟨infinite, bound⟩)]
    exact nofun
  | some x =>
    rw [ofBody_eq_error (e := .nonFiniteFloat x) (by rw [Body.check, infinite])]
    exact nofun

end Statement

end Clausal
