import Clausal.Proofs.Expr.Truth

/-!
# What filters say

A filter says what the conjunction of all conditions ever added to it says, and it does not matter how the conditions
were cut into conjunctions before they were added. What it stores is either nothing, because the conditions cannot be
met, or folded conditions that are neither constants nor conjunctions.
-/

namespace Clausal.Filter

/-- The value of a filter whose atoms have the values that `v` says. -/
def truth (v : Expr → Truth) : Filter → Truth
  | unsatisfiable => .no
  | all ps => .all (ps.map (Expr.truth v))

/-- Conditions that cannot be met leave nothing, and others are stored folded and taken apart. -/
def IsNormal (f : Filter) : Prop :=
  (f.isUnsatisfiable = true ∧ f.predicates = []) ∨
    (f.isUnsatisfiable = false ∧
      ∀ p ∈ f.predicates, p.simplify = p ∧ (∀ l r, p ≠ .binary l .and r) ∧ ∀ b, p ≠ .ofBool b)

private theorem asBool?_boolean (b : Bool) : (Expr.literal (.boolean b)).asBool? = some b := rfl

private theorem asBool?_binary (l : Expr) (op : BinaryOp) (r : Expr) : (Expr.binary l op r).asBool? = none := rfl

/-- Adding a conjunction is adding its two sides, one after the other. -/
theorem and_binary_and (f : Filter) (p q : Expr) : f.and (.binary p .and q) = (f.and p).and q := by
  cases f with
  | unsatisfiable => rfl
  | all ps =>
    rw [all_and, all_and, Expr.simplify, Expr.foldConnective]
    -- Only two sides without constants are kept together, and then both leave their conjuncts.
    cases hp : p.simplify.asBool? with
    | none =>
      cases hq : q.simplify.asBool? with
      | none => simp [all_and, hq, asBool?_binary, Expr.conjuncts]
      | some b => cases b <;> simp [all_and, hp, hq, asBool?_boolean]
    | some b =>
      cases b with
      | true =>
        cases hq : q.simplify.asBool? with
        | none => simp [all_and, hq]
        | some b => cases b <;> simp [all_and, hq, asBool?_boolean]
      | false => simp [Filter.and, asBool?_boolean]

/-- Adding a condition takes its value into the conjunction. -/
theorem truth_and (v : Expr → Truth) (f : Filter) (e : Expr) : (f.and e).truth v = (f.truth v).and (e.truth v) := by
  cases f with
  | unsatisfiable => exact (Truth.no_and _).symm
  | all ps =>
    rw [all_and, ← Expr.truth_simplify v e]
    cases h : e.simplify.asBool? with
    | none =>
      show Truth.all ((ps ++ e.simplify.conjuncts).map (Expr.truth v)) = _
      rw [List.map_append, Truth.all_append, Expr.truth_conjuncts]
      rfl
    | some b =>
      rw [Expr.eq_ofBool_of_asBool? h]
      cases b with
      | true => exact (Truth.and_yes _).symm
      | false => exact ((Truth.and_comm _ _).trans (Truth.no_and _)).symm

theorem truth_ofList (v : Expr → Truth) (added : List Expr) :
    (ofList added).truth v = .all (added.map (Expr.truth v)) := by
  have run : ∀ (added : List Expr) (f : Filter),
      (added.foldl and f).truth v = (f.truth v).and (.all (added.map (Expr.truth v))) := by
    intro added
    induction added with
    | nil => exact fun f => (Truth.and_yes _).symm
    | cons e added ih =>
      intro f
      rw [List.foldl_cons, ih, truth_and, Truth.and_assoc]
      rfl
  exact (run added empty).trans (Truth.yes_and _)

theorem isNormal_ofList (added : List Expr) : (ofList added).IsNormal := by
  have hconditions := isCondition_ofList added
  generalize ofList added = f at hconditions
  cases f with
  | unsatisfiable => exact .inl ⟨rfl, rfl⟩
  | all ps =>
    refine .inr ⟨rfl, fun p hp => ⟨(hconditions p hp).folded.simplify_eq, ?_, ?_⟩⟩
    · rintro l r rfl
      exact (hconditions _ hp).precedence_ne rfl
    · exact Expr.ne_ofBool_of_asBool? (hconditions p hp).asBool

/-- A filter to which conditions have been added stores what their conjunction stores, however it is cut, and says
what they say together. -/
theorem ofList_conjunction (added : List Expr) :
    (∀ p q, ((ofList added).and p).and q = (ofList added).and (.binary p .and q)) ∧ (ofList added).IsNormal ∧
      ∀ v, (ofList added).truth v = .all (added.map (Expr.truth v)) :=
  ⟨fun p q => (and_binary_and _ p q).symm, isNormal_ofList added, fun v => truth_ofList v added⟩

end Clausal.Filter
