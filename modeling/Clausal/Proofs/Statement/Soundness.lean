import Clausal.Proofs.Expr.Places
import Clausal.Proofs.Statement.WellFormed
import Mathlib.Data.List.Nodup

/-!
# Sound bodies

What stands in a body is told by its clauses: the literals of their expressions, and the entities that they bind. A
place in a body is the number of a clause, the number of an expression of this clause, and a place in the expression,
so that the order of places is the order in which the body is written. A body is sound when no float at any place is
infinite or NaN and no alias is given twice; if not, the error names what comes first.
-/

namespace Clausal

namespace Body

/-- The literal `l` stands at a place of a body. -/
def HasAt (b : Body) (place : List Nat) (l : Literal) : Prop :=
  ∃ i c inClause, place = i :: inClause ∧ b.clauses[i]? = some c ∧
    ∃ j e inExpr, inClause = j :: inExpr ∧ c.exprs[j]? = some e ∧ e.HasAt inExpr l

/-- No number at any place is infinite or NaN. -/
def AllFinite (b : Body) : Prop := ∀ place x, b.HasAt place (.float x) → x.isFinite = true

/-- The float `x` is infinite or NaN, and no such float stands before the place of `x`. -/
structure FirstNonFinite (b : Body) (place : List Nat) (x : Binary64) : Prop where
  stands : b.HasAt place (.float x)
  nonFinite : x.isFinite = false
  first : ∀ other y, b.HasAt other (.float y) → y.isFinite = false → place ≤ other

/-- The entities that the clauses of a body bind. -/
def bindings (b : Body) : List EntityRef := b.clauses.flatMap fun c => c.bound?.getD []

def aliasNames (b : Body) : List String := b.bindings.filterMap (·.aliasName)

theorem entityRefs_eq_bindings (b : Body) : b.entityRefs = b.bindings := by
  cases b <;> simp [entityRefs, bindings, clauses, Clause.bound?]

/-! ### Numbers -/

/-- The literals that are checked are those at all places, in their order. -/
theorem lists_literals (b : Body) : Lists b.HasAt (b.exprs.flatMap Expr.literals) := by
  rw [exprs_eq_flatMap, List.flatMap_assoc]
  exact Lists.flatMap fun c _ => Lists.flatMap fun e _ => e.lists_literals

theorem firstNonFinite?_eq_none {b : Body} : b.firstNonFinite? = none ↔ b.AllFinite := by
  rw [firstNonFinite?, List.findSome?_eq_none_iff]
  constructor
  · intro h place x stands
    exact nonFinite?_eq_none.1 (h (.float x) (b.lists_literals.mem_iff.2 ⟨place, stands⟩))
  · intro h l hl
    obtain ⟨place, stands⟩ := b.lists_literals.mem_iff.1 hl
    cases l with
    | float x => exact nonFinite?_eq_none.2 (h place x stands)
    | _ => rfl

theorem firstNonFinite_of_eq_some {b : Body} {x : Binary64} (h : b.firstNonFinite? = some x) :
    ∃ place, b.FirstNonFinite place x := by
  obtain ⟨place, l, stands, found, first⟩ := b.lists_literals.findSome?_eq_some h
  obtain ⟨rfl, hx⟩ := nonFinite?_eq_some.1 found
  refine ⟨place, stands, hx, fun other y hy hfinite => first other (.float y) hy ?_⟩
  rw [nonFinite?_eq_some.2 ⟨rfl, hfinite⟩]
  exact Option.some_ne_none y

/-! ### Aliases -/

/-- Aliases are bound in order, up to the first that is already bound. -/
theorem bindAll_cases (m : Aliases) (refs : List EntityRef) :
    ((∃ m', bindAll m refs = .ok m') ∧ (refs.filterMap (·.aliasName)).Nodup ∧
        ∀ a ∈ refs.filterMap (·.aliasName), m.contains a = false) ∨
      ∃ before a after, refs.filterMap (·.aliasName) = before ++ a :: after ∧ before.Nodup ∧
        (∀ b ∈ before, m.contains b = false) ∧ (a ∈ before ∨ m.contains a = true) ∧
        bindAll m refs = .error (.duplicateAlias a) := by
  induction refs generalizing m with
  | nil => exact .inl ⟨⟨m, rfl⟩, .nil, List.forall_mem_nil _⟩
  | cons r refs ih =>
    rw [bindAll]
    cases named : r.aliasName with
    | none =>
      rw [List.filterMap_cons_none named]
      exact ih m
    | some a =>
      rw [List.filterMap_cons_some named]
      cases free : m.contains a with
      | true =>
        refine .inr ⟨[], a, _, rfl, .nil, List.forall_mem_nil _, .inr free, ?_⟩
        simp only [Aliases.bind, free, if_true]
      | false =>
        have bound : m.bind a r.entity = .ok (m.insert a r.entity) := Aliases.bind_eq_ok_iff.2 ⟨free, rfl⟩
        simp only [bound]
        -- an alias that is free after `a` has been bound was free before, and is another one
        have apart : ∀ {b}, (m.insert a r.entity).contains b = false → a ≠ b ∧ m.contains b = false := fun h => by
          rwa [Aliases.contains_insert, Bool.or_eq_false_iff, decide_eq_false_iff_not] at h
        rcases ih (m.insert a r.entity) with ⟨ok, distinct, unused⟩ | ⟨before, b, after, split, distinct, unused, again, h⟩
        · exact .inl ⟨ok, List.nodup_cons.2 ⟨fun ha => (apart (unused a ha)).1 rfl, distinct⟩,
            List.forall_mem_cons.2 ⟨free, fun b hb => (apart (unused b hb)).2⟩⟩
        · refine .inr ⟨a :: before, b, after, by rw [split, List.cons_append],
            List.nodup_cons.2 ⟨fun ha => (apart (unused a ha)).1 rfl, distinct⟩,
            List.forall_mem_cons.2 ⟨free, fun c hc => (apart (unused c hc)).2⟩, ?_, h⟩
          rw [Aliases.contains_insert, Bool.or_eq_true, decide_eq_true_iff] at again
          rw [List.mem_cons]
          rcases again with hb | rfl | hb
          · exact .inl (.inr hb)
          · exact .inl (.inl rfl)
          · exact .inr hb

end Body

namespace Statement

open Body

/-- A statement binds the aliases of the entities of its body, each to its entity, and no others. -/
theorem get?_aliases_iff (s : Statement) (a : String) (e : Entity) :
    s.aliases.get? a = some e ↔ ∃ r ∈ s.body.bindings, r.aliasName = some a ∧ r.entity = e := by
  rw [← entityRefs_eq_bindings]
  constructor
  · intro bound
    have known : s.aliases.contains a = true := by
      rw [Dictionary.contains_eq_isSome, bound]
      rfl
    rcases (contains_bindAll s.bindAll_entityRefs a).1 known with before | given
    · cases before
    · obtain ⟨r, hr, ha⟩ := List.mem_map.1 given
      exact ⟨r, hr, ha, Option.some.inj ((get?_alias hr ha).symm.trans bound)⟩
  · rintro ⟨r, hr, ha, rfl⟩
    exact get?_alias hr ha

/-- A number that cannot be written is found whatever the aliases are, and the first one is named. -/
theorem ofBody_of_infinite {b : Body} (infinite : ¬ b.AllFinite) :
    ∃ place x, b.FirstNonFinite place x ∧ ofBody b = .error (.nonFiniteFloat x) := by
  obtain ⟨x, found⟩ := Option.ne_none_iff_exists'.1 (mt firstNonFinite?_eq_none.1 infinite)
  obtain ⟨place, first⟩ := firstNonFinite_of_eq_some found
  refine ⟨place, x, first, ofBody_eq_error ?_⟩
  rw [check, found]

/-- Where all numbers can be written, it depends on the aliases alone, and the first one that is given again is
named. -/
theorem ofBody_of_finite {b : Body} (finite : b.AllFinite) :
    ((∃ s, ofBody b = .ok s) ∧ b.aliasNames.Nodup) ∨
      ∃ before a after, b.aliasNames = before ++ a :: after ∧ before.Nodup ∧ a ∈ before ∧
        ofBody b = .error (.duplicateAlias a) := by
  have checked : b.check = bindAll .empty b.bindings := by
    rw [check, firstNonFinite?_eq_none.2 finite, entityRefs_eq_bindings]
  rcases bindAll_cases .empty b.bindings with ⟨⟨m, ok⟩, distinct, -⟩ | ⟨before, a, after, split, distinct, -, again, h⟩
  · exact .inl ⟨⟨_, ofBody_eq_ok (checked.trans ok)⟩, distinct⟩
  · exact .inr ⟨before, a, after, split, distinct, again.resolve_right Bool.false_ne_true, ofBody_eq_error (checked.trans h)⟩

/-- Exactly the bodies without numbers that cannot be written and without an alias given twice become statements, with
the aliases of their entities. Else the first such number is named, or, if there is none, the first such alias. -/
theorem ofBody_sound (b : Body) :
    ((∃ s, ofBody b = .ok s) ↔ b.AllFinite ∧ b.aliasNames.Nodup) ∧
    (∀ s, ofBody b = .ok s → s.body = b ∧ ∀ a e, s.aliases.get? a = some e ↔
      ∃ r ∈ b.bindings, r.aliasName = some a ∧ r.entity = e) ∧
    (¬ b.AllFinite → ∃ place x, b.FirstNonFinite place x ∧ ofBody b = .error (.nonFiniteFloat x)) ∧
    (b.AllFinite → ¬ b.aliasNames.Nodup → ∃ before a after, b.aliasNames = before ++ a :: after ∧ before.Nodup ∧
      a ∈ before ∧ ofBody b = .error (.duplicateAlias a)) := by
  refine ⟨⟨fun ⟨s, ok⟩ => ?_, fun ⟨finite, distinct⟩ => ?_⟩, fun s ok => ?_, ofBody_of_infinite,
    fun finite repeated => (ofBody_of_finite finite).resolve_left fun h => repeated h.2⟩
  · have finite : b.AllFinite := by
      by_contra infinite
      obtain ⟨_, _, _, h⟩ := ofBody_of_infinite infinite
      exact absurd (ok.symm.trans h) nofun
    rcases ofBody_of_finite finite with ⟨-, distinct⟩ | ⟨_, _, _, -, -, -, h⟩
    · exact ⟨finite, distinct⟩
    · exact absurd (ok.symm.trans h) nofun
  · rcases ofBody_of_finite finite with ⟨ok, -⟩ | ⟨before, a, after, split, -, again, -⟩
    · exact ok
    · rw [split, List.nodup_middle, List.nodup_cons] at distinct
      exact absurd (List.mem_append_left after again) distinct.1
  · obtain rfl := body_ofBody ok
    exact ⟨rfl, s.get?_aliases_iff⟩

end Statement

end Clausal
