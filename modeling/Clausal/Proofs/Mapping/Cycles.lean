import Clausal.Proofs.Record.Columns
import Mathlib.Data.Finset.Card
import Mathlib.Logic.Relation

/-!
# Types that are stored by way of themselves

A type depends on the types that the links of its mapper lead to. Where no type that can be reached depends on
itself, expanding a type goes down along a path of different types, and only registered types are gone through, so
their number bounds the depth: if the expansion gave up at that depth, a path would have one type too many. Where
a type that can be reached depends on itself, and no unmapped type stops the expansion before, every type on the
way leads on to another one of the same kind, and no depth is enough.
-/

namespace Clausal

namespace Registry

variable {r : Registry}

/-! ### Dependencies -/

def registered (r : Registry) : Finset LogicalType := (r.mappers.map (·.1)).toFinset

/-- A link of the mapper of `a` leads to `b`. -/
def DependsOn (r : Registry) (a b : LogicalType) : Prop :=
  ∃ m, r.find? a = some m ∧ ∃ l ∈ m.links, l.target = .logical b

/-- From `a` dependencies lead to `b`, which may be `a` itself. -/
def Reaches (r : Registry) : LogicalType → LogicalType → Prop := Relation.ReflTransGen r.DependsOn

/-- A type that can be reached depends on itself, directly or by way of others. -/
def HasCycle (r : Registry) (type : LogicalType) : Prop :=
  ∃ t, r.Reaches type t ∧ Relation.TransGen r.DependsOn t t

theorem mem_registered {type : LogicalType} : type ∈ r.registered ↔ r.contains type = true := by
  rw [registered, List.mem_toFinset, contains, find?, Option.isSome_map, List.find?_isSome]
  constructor
  · intro h
    obtain ⟨entry, he, rfl⟩ := List.mem_map.1 h
    exact ⟨entry, he, beq_self_eq_true entry.1⟩
  · rintro ⟨entry, he, same⟩
    exact List.mem_map.2 ⟨entry, he, beq_iff_eq.1 same⟩

theorem card_registered_le (r : Registry) : r.registered.card ≤ r.size := by
  rw [size, ← List.length_map (·.1)]
  exact List.toFinset_card_le _

theorem mem_registered_of_lookup {type : LogicalType} {m : Mapper} (h : r.lookup type = .ok m) :
    type ∈ r.registered := by
  rw [mem_registered, contains, lookup_eq_ok.1 h]
  rfl

theorem find?_of_lookup_error {type : LogicalType} {e : Error} (h : r.lookup type = .error e) :
    r.find? type = none := by
  cases found : r.find? type with
  | none => rfl
  | some m => cases (lookup_eq_ok.2 found).symm.trans h

theorem dependsOn_of_link {type target : LogicalType} {m : Mapper} {l : Link} (found : r.lookup type = .ok m)
    (hl : l ∈ m.links) (leads : l.target = .logical target) : r.DependsOn type target :=
  ⟨m, lookup_eq_ok.1 found, l, hl, leads⟩

/-- An expansion that fails goes too deep or reaches a type that has no mapper. -/
theorem expandType_error_cases {depth : Nat} {type : LogicalType} {base : String} {e : Error}
    (h : r.expandType depth type base = .error e) : Endless (r.expandType depth type base) ∨
      ∃ missing, e = .unmapped missing ∧ r.Reaches type missing ∧ r.find? missing = none := by
  induction depth generalizing type base with
  | zero =>
    cases hm : r.lookup type with
    | ok m => exact .inl (expandType_zero hm)
    | error e' =>
      rw [expandType_of_error hm] at h
      cases h
      exact .inr ⟨type, lookup_error hm, .refl, find?_of_lookup_error hm⟩
  | succ depth ih =>
    cases expandType_succ_eq_error.1 h with
    | lookup missing => exact .inr ⟨type, lookup_error missing, .refl, find?_of_lookup_error missing⟩
    | link found links given leads failed =>
      rcases ih failed with ⟨t, ht⟩ | ⟨missing, he, reach, none_⟩
      · rw [failed] at ht
        exact .inl ⟨t, h.trans ht⟩
      · have step := dependsOn_of_link found (by rw [links]; exact List.mem_append_cons_self) leads
        exact .inr ⟨missing, he, reach.head step, none_⟩

/-! ### Without cycles -/

/-- An expansion that goes too deep follows a path of dependencies between registered types. -/
theorem exists_path {depth : Nat} {type : LogicalType} {base : String}
    (h : Endless (r.expandType depth type base)) : ∃ rest : List LogicalType, rest.length = depth ∧
      (type :: rest).IsChain r.DependsOn ∧ ∀ t ∈ type :: rest, t ∈ r.registered := by
  induction depth generalizing type base with
  | zero =>
    cases hm : r.lookup type with
    | error e =>
      rw [expandType_of_error hm, lookup_error hm] at h
      exact absurd h (not_endless_unmapped type)
    | ok m =>
      exact ⟨[], rfl, .singleton type, List.forall_mem_singleton.2 (mem_registered_of_lookup hm)⟩
  | succ depth ih =>
    obtain ⟨t, ht⟩ := h
    cases expandType_succ_eq_error.1 ht with
    | lookup missing => cases lookup_error missing
    | @link m before later l target found links given leads failed =>
      obtain ⟨rest, count, chain, all⟩ := ih ⟨t, failed⟩
      have step := dependsOn_of_link found (by rw [links]; exact List.mem_append_cons_self) leads
      exact ⟨target :: rest, by rw [List.length_cons, count], .cons_cons step chain,
        List.forall_mem_cons.2 ⟨mem_registered_of_lookup found, all⟩⟩

/-- Where no cycle can be reached, the types on a path are all different. -/
theorem nodup_of_chain {type : LogicalType} {rest : List LogicalType} (acyclic : ¬ r.HasCycle type)
    (chain : (type :: rest).IsChain r.DependsOn) : (type :: rest).Nodup := by
  have ordered : (type :: rest).Pairwise (Relation.TransGen r.DependsOn) :=
    List.isChain_iff_pairwise.1 (chain.imp fun _ _ => .single)
  have reached : ∀ t ∈ type :: rest, r.Reaches type t := List.forall_mem_cons.2
    ⟨.refl, fun t ht => ((List.pairwise_cons.1 ordered).1 t ht).to_reflTransGen⟩
  refine ordered.imp_of_mem fun {a b} ha _ between same => acyclic ⟨a, reached a ha, ?_⟩
  rw [← same] at between
  exact between

/-- Where no cycle can be reached, the expansion of a type comes to an end within as many types as are
registered. -/
theorem settles_of_acyclic {type : LogicalType} (acyclic : ¬ r.HasCycle type) :
    r.Settles r.registered.card type := by
  intro base deep
  obtain ⟨rest, count, chain, all⟩ := exists_path deep
  have distinct := nodup_of_chain acyclic chain
  have fits : (type :: rest).toFinset.card ≤ r.registered.card :=
    Finset.card_le_card fun t ht => all t (List.mem_toFinset.1 ht)
  rw [List.toFinset_card_of_nodup distinct, List.length_cons, count] at fits
  exact absurd fits (Nat.not_succ_le_self _)

/-! ### With a cycle -/

/-- Where a cycle can be reached, a dependency leads to a type from which it still can be. -/
theorem HasCycle.next {type : LogicalType} (h : r.HasCycle type) :
    ∃ t, r.DependsOn type t ∧ r.HasCycle t := by
  obtain ⟨t, reach, cycle⟩ := h
  rcases reach.cases_head with rfl | ⟨u, step, reach⟩
  · obtain ⟨u, step, back⟩ := Relation.TransGen.head'_iff.1 cycle
    exact ⟨u, step, type, back, cycle⟩
  · exact ⟨u, step, t, reach, cycle⟩

/-- Where a cycle can be reached and every type that can be reached has a mapper, no depth is enough. -/
theorem endless_of_cycle {depth : Nat} {type : LogicalType} {base : String}
    (mapped : ∀ t, r.Reaches type t → r.contains t = true) (cycle : r.HasCycle type) :
    Endless (r.expandType depth type base) := by
  induction depth generalizing type base with
  | zero =>
    obtain ⟨m, found⟩ := Option.isSome_iff_exists.1 (mapped type .refl)
    exact expandType_zero (lookup_eq_ok.2 found)
  | succ depth ih =>
    obtain ⟨u, ⟨m, found, l, hl, leads⟩, further⟩ := cycle.next
    have step : r.DependsOn type u := ⟨m, found, l, hl, leads⟩
    have deep : Endless (r.linkColumns depth base l) := by
      rw [linkColumns_logical leads]
      exact ih (fun t reach => mapped t (reach.head step)) further
    cases result : r.expandType (depth + 1) type base with
    | ok cs =>
      rw [expandType_of_lookup (lookup_eq_ok.2 found), expand_succ] at result
      obtain ⟨groups, all, _⟩ := map_eq_ok.1 result
      obtain ⟨cs', given⟩ := mapM_ok_of_mem all hl
      rw [given] at deep
      exact absurd deep (not_endless_ok cs')
    | error e =>
      rcases expandType_error_cases result with deeper | ⟨missing, _, reach, none_⟩
      · rwa [result] at deeper
      · have known := mapped missing reach
        rw [contains, none_] at known
        cases known

/-! ### Trees -/

/-- The tree of a type, found by going down through at most `depth` types. -/
def growType (r : Registry) (depth : Nat) (type : LogicalType) (base : String) : Except Error SegmentTree := do
  let m ← r.lookup type
  r.grow depth m base

theorem columns_growType (r : Registry) (depth : Nat) (type : LogicalType) (base : String) :
    (r.growType depth type base).map SegmentTree.columns = r.expandType depth type base := by
  unfold growType expandType
  cases r.lookup type with
  | error e => rfl
  | ok m => exact r.columns_grow depth m base

theorem endless_growType {depth : Nat} {type : LogicalType} {base : String} :
    Endless (r.growType depth type base) ↔ Endless (r.expandType depth type base) := by
  rw [← columns_growType, endless_map]

theorem growLink_eq {l : Link} {type : LogicalType} (h : l.target = .logical type) (depth : Nat) (base : String) :
    r.growLink depth base l = (r.growType depth type (l.columnName base)).map fun t =>
      .branch l t.first t.siblings := by
  simp only [growLink, growType, h]
  cases r.lookup type with
  | error e => rfl
  | ok m =>
    simp only [ok_bind]
    cases r.grow depth m (l.columnName base) <;> rfl

/-- A tree that was grown within a depth is grown within the next one. -/
theorem growType_succ {depth : Nat} {type : LogicalType} {base : String}
    (h : ¬ Endless (r.growType depth type base)) :
    r.growType (depth + 1) type base = r.growType depth type base := by
  induction depth generalizing type base with
  | zero =>
    cases hm : r.lookup type with
    | error e => simp only [growType, hm]; rfl
    | ok m => exact absurd (expandType_zero hm) (endless_growType.not.1 h)
  | succ depth ih =>
    cases hm : r.lookup type with
    | error e => simp only [growType, hm]; rfl
    | ok m =>
      have agree (l : Link) (hl : ¬ Endless (r.growLink depth base l)) :
          r.growLink (depth + 1) base l = r.growLink depth base l := by
        cases target : l.target with
        | column type => simp only [growLink, target]
        | logical type =>
          rw [growLink_eq target, endless_map] at hl
          rw [growLink_eq target, growLink_eq target, ih hl]
      simp only [growType, hm, ok_bind, grow_succ_eq] at h ⊢
      have first : ¬ Endless (r.growLink depth base m.first) := by
        rintro ⟨t, ht⟩
        exact h ⟨t, by rw [ht]; rfl⟩
      rw [agree m.first first]
      cases hfirst : r.growLink depth base m.first with
      | error e => rfl
      | ok s =>
        have siblings : ¬ Endless (m.siblings.mapM (r.growLink depth base)) := by
          rintro ⟨t, ht⟩
          exact h ⟨t, by rw [hfirst, ht]; rfl⟩
        rw [mapM_settled (fun l _ => agree l) siblings]

theorem growType_le {depth deeper : Nat} (h : depth ≤ deeper) {type : LogicalType} {base : String}
    (settled : ¬ Endless (r.growType depth type base)) :
    r.growType deeper type base = r.growType depth type base :=
  eq_of_settled (f := fun depth => r.growType depth type base) (fun _ => growType_succ) h settled

/-! ### The two expansions -/

/-- A result, or the failure at a type that can be reached and has no mapper. -/
def Answers {α : Type} (r : Registry) (type : LogicalType) (x : Except Error α) : Prop :=
  ∀ e, x = .error e → ∃ missing, e = .unmapped missing ∧ r.Reaches type missing ∧ r.contains missing = false

theorem answers_of_settles {depth : Nat} {type : LogicalType} {base : String}
    (settled : ¬ Endless (r.expandType depth type base)) : r.Answers type (r.expandType depth type base) := by
  intro e failed
  rcases expandType_error_cases failed with deep | ⟨missing, he, reach, none_⟩
  · exact absurd deep settled
  · exact ⟨missing, he, reach, by rw [contains, none_]; rfl⟩

/-- Where no type that can be reached depends on itself, the columns of a type and its tree are found, or one that
can be reached has no mapper. They need no more depth than there are registered types, and more depth changes
nothing. Where one depends on itself and all that can be reached have mappers, no depth is enough for either, and
nothing is prescribed for the columns. Depth counts types within types: the links of one mapper stand side by side. -/
theorem ends_unless_cyclic (r : Registry) (type : LogicalType) :
    (¬ r.HasCycle type → ∀ base,
      (∃ columns, r.Answers type columns ∧ (do r.physicalColumns (← r.lookup type) base) = columns ∧
        (∀ depth, r.registered.card ≤ depth → r.expandType depth type base = columns) ∧
        (r.HasKinds → r.Expands type base columns)) ∧
      ∃ tree, r.Answers type tree ∧ r.segmentTree type base = tree ∧
        ∀ depth, r.registered.card ≤ depth → r.growType depth type base = tree) ∧
    ((∀ t, r.Reaches type t → r.contains t = true) → r.HasCycle type → ∀ base,
      (∀ depth, Endless (r.expandType depth type base)) ∧ (∀ depth, Endless (r.growType depth type base)) ∧
        (r.HasKinds → ∀ x, ¬ r.Expands type base x)) := by
  constructor
  · intro acyclic base
    have settled := settles_of_acyclic acyclic base
    have grown := endless_growType.not.2 settled
    have enough : r.registered.card ≤ r.size + 1 := Nat.le_succ_of_le r.card_registered_le
    refine ⟨⟨_, answers_of_settles settled, expandType_le enough settled, fun _ deeper => expandType_le deeper settled,
      fun kinds => expands_expandType kinds settled⟩, _, fun e failed => ?_, growType_le enough grown,
      fun _ deeper => growType_le deeper grown⟩
    refine answers_of_settles settled e ?_
    rw [← columns_growType, failed]
    rfl
  · intro mapped cycle base
    have deep (depth : Nat) : Endless (r.expandType depth type base) := endless_of_cycle mapped cycle
    refine ⟨deep, fun depth => endless_growType.2 (deep depth), fun _ x expands => expands.not_endless ?_⟩
    rw [← expands.expandType_eq]
    exact deep r.size

/-- A hub is stored as a rim and a rim as a hub; a spoke is stored as a number. -/
private def wheel : Registry :=
  ⟨[(.long, .scalar .long .bigint), (.named "hub", .convert (.named "hub") (.named "rim") .ok .ok),
    (.named "rim", .convert (.named "rim") (.named "hub") .ok .ok), (.named "spoke", .convert (.named "spoke") .long .ok .ok)]⟩

private theorem wheel_dependsOn {a b : LogicalType} (h : wheel.DependsOn a b) :
    (a = .named "hub" ∧ b = .named "rim") ∨ (a = .named "rim" ∧ b = .named "hub") ∨
      (a = .named "spoke" ∧ b = .long) := by
  obtain ⟨m, found, l, hl, leads⟩ := h
  obtain ⟨entry, he, rfl⟩ := Option.map_eq_some_iff.1 found
  have same : entry.1 = a := by simpa using List.find?_some he
  have listed := List.mem_of_find?_eq_some he
  subst same
  simp only [wheel, List.mem_cons, List.not_mem_nil, or_false] at listed
  rcases listed with rfl | rfl | rfl | rfl <;> cases List.mem_singleton.1 hl <;> cases leads <;> simp

theorem ends_unless_cyclic_wheel :
    (∃ tree, wheel.segmentTree (.named "spoke") "s" = .ok tree ∧
      ∀ depth, 4 ≤ depth → wheel.growType depth (.named "spoke") "s" = .ok tree) ∧
    ∀ depth, Endless (wheel.growType depth (.named "hub") "h") := by
  constructor
  · have acyclic : ¬ wheel.HasCycle (.named "spoke") := by
      -- Dependencies lead to the number and no further.
      have below (t : LogicalType) (reach : wheel.Reaches (.named "spoke") t) : t = .named "spoke" ∨ t = .long := by
        induction reach with
        | refl => exact .inl rfl
        | tail _ step ih =>
          rcases ih with rfl | rfl
          · exact .inr (by simpa using wheel_dependsOn step)
          · simpa using wheel_dependsOn step
      rintro ⟨t, reach, cycle⟩
      obtain ⟨u, back, step⟩ := Relation.TransGen.tail'_iff.1 cycle
      rcases below u (reach.trans back) with rfl | rfl
      · obtain rfl : t = .long := by simpa using wheel_dependsOn step
        rcases back.cases_head with h | ⟨v, h, _⟩
        · cases h
        · simpa using wheel_dependsOn h
      · simpa using wheel_dependsOn step
    obtain ⟨_, tree, _, found, steady⟩ := (ends_unless_cyclic wheel (.named "spoke")).1 acyclic "s"
    have given : ∃ tree, wheel.segmentTree (.named "spoke") "s" = .ok tree := ⟨_, rfl⟩
    obtain ⟨tree', found'⟩ := given
    obtain rfl := found.symm.trans found'
    exact ⟨tree', found', fun depth deep => steady depth (Nat.le_trans (by decide) deep)⟩
  · have mapped (t : LogicalType) (reach : wheel.Reaches (.named "hub") t) : wheel.contains t = true := by
      have known : t = .named "hub" ∨ t = .named "rim" := by
        induction reach with
        | refl => exact .inl rfl
        | tail _ step ih =>
          rcases ih with rfl | rfl
          · exact .inr (by simpa using wheel_dependsOn step)
          · exact .inl (by simpa using wheel_dependsOn step)
      rcases known with rfl | rfl <;> rfl
    have cycle : wheel.HasCycle (.named "hub") := by
      have out : wheel.DependsOn (.named "hub") (.named "rim") := ⟨_, rfl, _, .head _, rfl⟩
      have back : wheel.DependsOn (.named "rim") (.named "hub") := ⟨_, rfl, _, .head _, rfl⟩
      exact ⟨_, .refl, .tail (.single out) back⟩
    exact ((ends_unless_cyclic wheel (.named "hub")).2 mapped cycle "h").2.1

end Registry

end Clausal
