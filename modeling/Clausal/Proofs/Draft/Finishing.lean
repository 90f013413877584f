import Clausal.Proofs.Draft.Consistency
import Mathlib.Data.List.Nodup

/-!
# Scopes can be finished

The entities of a scope hold all aliases that are bound, so where one of them has none yet, fewer aliases are bound
than there are entities, and an alias that is tried for it is free. A hundred entities can always be finished, whatever
they are called and whatever has been chosen for them.
-/

namespace Clausal.Scope

/-- No more aliases are bound than there are entities with one. -/
theorem Consistent.size_aliases_le {s : Scope} (h : s.Consistent) :
    s.aliases.size ≤ (s.entities.filterMap (·.aliasName)).length := by
  have held : s.aliases.entries.map (·.1) ⊆ s.entities.filterMap (·.aliasName) := by
    intro a bound
    obtain ⟨⟨_, t⟩, entry, rfl⟩ := List.mem_map.1 bound
    obtain ⟨i, e, he, ha⟩ := h.held _ t ((s.aliases.mem_entries_iff _ t).1 entry)
    exact List.mem_filterMap.2 ⟨e, List.mem_of_getElem? he, ha⟩
  have := s.aliases.nodup_keys.length_le_of_subset held
  rwa [List.length_map] at this

/-- Among a hundred entities, each has an alias or can get one. -/
theorem Consistent.aliasOf_exists {s : Scope} (h : s.Consistent) (few : s.entities.length ≤ 100) {i : Nat}
    (hi : i < s.entities.length) : ∃ a s', aliasOf ⟨i⟩ s = (.ok a, s') := by
  rw [aliasOf_apply]
  simp only [List.getElem?_eq_getElem hi]
  cases named : s.entities[i].aliasName with
  | some a => exact ⟨a, s, rfl⟩
  | none =>
    have unnamed : (s.entities.filterMap (·.aliasName)).length < s.entities.length :=
      List.length_filterMap_lt_length_iff_exists.2 ⟨_, List.getElem_mem hi, named⟩
    have bound := h.size_aliases_le
    have below : s.aliases.size < (Text.lower s.entities[i].entity.name).length + 100 := by omega
    obtain ⟨a, fresh⟩ := Aliases.fresh_of_size_lt below
    simp only [fresh, Aliases.bind_eq_ok_iff.2 ⟨Aliases.not_contains_fresh fresh, rfl⟩]
    exact ⟨a, _, rfl⟩

theorem Consistent.forM_aliasOf_exists {s : Scope} (h : s.Consistent) (few : s.entities.length ≤ 100) {is : List Nat}
    (inside : ∀ i ∈ is, i < s.entities.length) :
    ∃ s', (is.forM fun i => discard (aliasOf ⟨i⟩) : ScopeM PUnit) s = (.ok ⟨⟩, s') := by
  induction is generalizing s with
  | nil => exact ⟨s, rfl⟩
  | cons i is ih =>
    obtain ⟨hi, his⟩ := List.forall_mem_cons.1 inside
    obtain ⟨a, t, ha⟩ := h.aliasOf_exists few hi
    have names := aliasOf_ok ha
    have same : t.entities.length = s.entities.length := by
      simpa using congrArg List.length names.grows.entities
    obtain ⟨s', hs⟩ := ih (h.names names) (same ▸ few) (same ▸ his)
    have first : (discard (aliasOf ⟨i⟩) : ScopeM PUnit) s = (.ok ⟨⟩, t) := (map_apply _ _ s).trans (by rw [ha])
    refine ⟨s', (bind_apply (discard (aliasOf ⟨i⟩)) _ s).trans ?_⟩
    rw [first]
    exact hs

/-- Up to a hundred entities can be finished. -/
theorem Consistent.finish_exists {s : Scope} (h : s.Consistent) (few : s.entities.length ≤ 100) :
    ∃ refs, s.finish = .ok refs := by
  obtain ⟨s', all⟩ := h.forM_aliasOf_exists few fun i (hi : i ∈ List.range s.entities.length) => List.mem_range.1 hi
  have finished : aliasAll s = (.ok ⟨⟩, s') := by
    unfold aliasAll
    rw [bind_apply, get_apply]
    exact all
  refine ⟨s'.entities, ?_⟩
  rw [finish, run_ok.2 finished]
  rfl

theorem Sound.nodup_aliasNames {s : Scope} (sound : s.Sound) (all : ∀ e ∈ s.entities, ∃ a, e.aliasName = some a) :
    (s.entities.map (·.aliasName)).Nodup := by
  refine List.pairwise_map.2 (sound.pairwise.imp_of_mem fun {e _} he _ apart same => ?_)
  obtain ⟨a, ha⟩ := all e he
  exact apart a ha (same ▸ ha)

/-- The aliases that are tried for an entity are the beginnings of its name in lower case, shortest first, and this
name with the numbers from 0 to 99; they are all different. The first that is free is taken, and only if all of them
are bound there is none, which needs as many bound aliases. So every scope of up to a hundred entities can be finished,
whatever calls it has been through: the entities stay, with the aliases that they had, and all have different ones. -/
theorem fresh_aliases_suffice :
    (∀ name : String,
      Aliases.candidates name =
          ((List.range (Text.lower name).length).map fun i => String.ofList ((Text.lower name).toList.take (i + 1))) ++
            (List.range 100).map (fun i => Text.lower name ++ toString i) ∧
        (Aliases.candidates name).length = (Text.lower name).length + 100 ∧ (Aliases.candidates name).Nodup) ∧
    (∀ (m : Aliases) (name : String),
      (∀ a, m.fresh name = .ok a ↔ ∃ before after, Aliases.candidates name = before ++ a :: after ∧
        (∀ b ∈ before, m.contains b = true) ∧ m.contains a = false) ∧
      (∀ x, m.fresh name = .error x ↔
        x = .aliasSpaceExhausted name ∧ ∀ a ∈ Aliases.candidates name, m.contains a = true) ∧
      (m.size < (Text.lower name).length + 100 → ∃ a, m.fresh name = .ok a)) ∧
    ∀ (calls : List Call) (s : Scope), empty.after calls = s → s.entities.length ≤ 100 →
      ∃ refs, s.finish = .ok refs ∧ refs.map (·.entity) = s.entities.map (·.entity) ∧
        (∀ (i : Nat) (e : EntityRef) (a : String), s.entities[i]? = some e → e.aliasName = some a →
          refs[i]? = some e) ∧
        (∀ e ∈ refs, ∃ a, e.aliasName = some a) ∧ (refs.map (·.aliasName)).Nodup ∧
        ∀ primary others, refs = primary :: others → s.sources = .ok ⟨primary, others⟩ := by
  refine ⟨fun name => ⟨Aliases.candidates_eq name, Aliases.length_candidates name, Aliases.nodup_candidates name⟩,
    fun m name => ⟨fun a => Aliases.fresh_eq_ok_iff, fun x => Aliases.fresh_eq_error_iff, Aliases.fresh_of_size_lt⟩,
    fun calls s reached few => ?_⟩
  have consistent : s.Consistent := reached ▸ Consistent.empty.after calls
  obtain ⟨refs, finished⟩ := consistent.finish_exists few
  obtain ⟨t, rfl, grows, named⟩ := finish_ok finished
  refine ⟨t.entities, finished, grows.entities.trans (List.append_nil _), grows.kept, named,
    (grows.sound consistent.toSound).nodup_aliasNames named, fun primary others split => ?_⟩
  rw [Scope.sources, finished, split]
  rfl

/-- An alias is chosen for the second entity that would be the first to be tried for the other one. -/
private def chosenFirst : List Call :=
  [.bind (.opaqueNamed "p"), .bind (.opaqueNamed "p"), .setAlias ⟨1⟩ "p"]

theorem fresh_aliases_suffice_chosen :
    ∃ s, empty.after chosenFirst = s ∧
      s.aliases.fresh "p" = .ok "p0" ∧
      ∃ refs, s.finish = .ok refs ∧ refs.length = 2 ∧ (refs.map (·.aliasName)).Nodup := by
  refine ⟨_, rfl, by decide +kernel, ?_⟩
  obtain ⟨refs, finished, entities, -, -, distinct, -⟩ := fresh_aliases_suffice.2.2 chosenFirst _ rfl (by decide +kernel)
  refine ⟨refs, finished, ?_, distinct⟩
  rw [← List.length_map, entities, List.length_map]
  decide +kernel

end Clausal.Scope
