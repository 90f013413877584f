import Clausal.Proofs.Expr.Paths

/-!
# Folded conditions

An expression is folded when its connectives have no boolean constant below them and no negation is doubled.
Folding gives a folded expression and leaves one as it is. The conditions of a filter are the conjuncts of folded
expressions, so the conjunction of all of them, added to the filter without conditions, gives them back.
-/

namespace Clausal

namespace Expr

/-- No boolean constant stands under a connective, and no negation under another one. -/
def Folded : Expr → Prop
  | binary l .and r | binary l .or r => Folded l ∧ Folded r ∧ l.asBool? = none ∧ r.asBool? = none
  | unary .not e => Folded e ∧ e.asBool? = none ∧ ∀ x, e ≠ unary .not x
  | _ => True

private theorem folded_foldConnective {op : BinaryOp} (hop : op = .and ∨ op = .or) {absorbing : Bool} {l r : Expr}
    (hl : l.Folded) (hr : r.Folded) : (foldConnective op absorbing l r).Folded := by
  unfold foldConnective
  split
  · exact trivial
  split
  · exact hr
  split
  · exact hl
  · rename_i hleft hright
    have hparts : l.Folded ∧ r.Folded ∧ l.asBool? = none ∧ r.asBool? = none :=
      ⟨hl, hr, by simpa using hleft, by simpa using hright⟩
    rcases hop with rfl | rfl <;> exact hparts

private theorem folded_foldNegation {e : Expr} (h : e.Folded) : (foldNegation e).Folded := by
  fun_cases foldNegation e with
  | case1 b => exact trivial
  | case2 e => exact h.1
  | case3 e hbool hnot =>
    refine ⟨h, ?_, fun x hx => hnot x hx⟩
    unfold asBool?
    split
    · exact absurd rfl (hbool _)
    · rfl

theorem folded_simplify (e : Expr) : e.simplify.Folded := by
  induction e using recurse with
  | binary l op r hl hr =>
    cases op with
    | and => exact folded_foldConnective (.inl rfl) hl hr
    | or => exact folded_foldConnective (.inr rfl) hl hr
    | _ => exact trivial
  | unary op e he =>
    cases op with
    | not => exact folded_foldNegation he
    | neg => exact trivial
  | _ => exact trivial

theorem Folded.simplify_eq {e : Expr} (h : e.Folded) : e.simplify = e := by
  induction e using recurse with
  | binary l op r hl hr =>
    cases op with
    | and =>
      rw [simplify, hl h.1, hr h.2.1, foldConnective, h.2.2.1, h.2.2.2]
      rfl
    | or =>
      rw [simplify, hl h.1, hr h.2.1, foldConnective, h.2.2.1, h.2.2.2]
      rfl
    | _ => rfl
  | unary op e he =>
    cases op with
    | not =>
      obtain ⟨hfolded, hbool, hnot⟩ := h
      rw [simplify, he hfolded]
      fun_cases foldNegation e with
      | case1 b => cases hbool
      | case2 e => exact absurd rfl (hnot e)
      | case3 => rfl
    | neg => rfl
  | _ => rfl

/-- A condition as a filter keeps it: folded, no constant, and no conjunction. -/
structure IsCondition (e : Expr) : Prop where
  folded : e.Folded
  asBool : e.asBool? = none
  conjuncts : e.conjuncts = [e]

theorem Folded.isCondition {e : Expr} (h : e.Folded) (hbool : e.asBool? = none) {x : Expr}
    (hx : x ∈ e.conjuncts) : x.IsCondition := by
  induction e using recurse with
  | binary l op r hl hr =>
    cases op with
    | and =>
      rcases List.mem_append.1 hx with hx | hx
      · exact hl h.1 h.2.2.1 hx
      · exact hr h.2.1 h.2.2.2 hx
    | _ =>
      rw [List.mem_singleton.1 hx]
      exact ⟨h, hbool, rfl⟩
  | _ =>
    rw [List.mem_singleton.1 hx]
    exact ⟨h, hbool, rfl⟩

private theorem conjuncts_ne_nil (e : Expr) : e.conjuncts ≠ [] := by
  induction e using recurse with
  | binary l op r hl hr =>
    cases op with
    | and => exact List.append_ne_nil_of_left_ne_nil hl _
    | _ => exact List.cons_ne_nil _ _
  | _ => exact List.cons_ne_nil _ _

private theorem eq_and_of_precedence {op : BinaryOp} (h : op.precedence = Precedence.and) : op = .and := by
  cases op <;> first | rfl | exact absurd h (by decide)

/-- Only a conjunction binds as a conjunction does. -/
theorem IsCondition.precedence_ne {e : Expr} (h : e.IsCondition) : e.precedence ≠ Precedence.and := by
  intro heq
  cases e with
  | binary l op r =>
    obtain rfl := eq_and_of_precedence heq
    have hlength := congrArg List.length h.conjuncts
    rw [Expr.conjuncts, List.length_append, List.length_singleton] at hlength
    have hl := List.length_pos_iff.2 (conjuncts_ne_nil l)
    have hr := List.length_pos_iff.2 (conjuncts_ne_nil r)
    omega
  | unary op e =>
    cases op with
    | neg => exact (by decide : Precedence.neg ≠ Precedence.and) heq
    | not => exact (by decide : Precedence.not ≠ Precedence.and) heq
  | isNull e n => exact (by decide : Precedence.compare ≠ Precedence.and) heq
  | isIn e es n => exact (by decide : Precedence.compare ≠ Precedence.and) heq
  | between e l u n => exact (by decide : Precedence.compare ≠ Precedence.and) heq
  | _ => exact (by decide : Precedence.atom ≠ Precedence.and) heq

/-- Conditions joined left to right. -/
def conjunction (p : Expr) (ps : List Expr) : Expr := ps.foldl (fun l r => binary l .and r) p

theorem conjunction_spec {ps : List Expr} {l : Expr} (hl : l.Folded) (hbool : l.asBool? = none)
    (h : ∀ p ∈ ps, p.IsCondition) :
    (conjunction l ps).Folded ∧ (conjunction l ps).asBool? = none ∧
      (conjunction l ps).conjuncts = l.conjuncts ++ ps := by
  induction ps generalizing l with
  | nil => exact ⟨hl, hbool, (List.append_nil _).symm⟩
  | cons p ps ih =>
    have hp := h p List.mem_cons_self
    have hboth : (binary l .and p).Folded := ⟨hl, hp.folded, hbool, hp.asBool⟩
    have hall := ih hboth rfl fun q hq => h q (List.mem_cons_of_mem _ hq)
    rw [Expr.conjuncts, hp.conjuncts, List.append_assoc, List.singleton_append] at hall
    exact hall

end Expr

namespace Filter

theorem isCondition_of_and {f : Filter} (h : ∀ p ∈ f.predicates, p.IsCondition) (e : Expr) :
    ∀ p ∈ (f.and e).predicates, p.IsCondition := by
  intro p hp
  cases f with
  | unsatisfiable => exact h p hp
  | all ps =>
    rw [all_and] at hp
    split at hp
    · exact h p hp
    · exact absurd hp List.not_mem_nil
    · rename_i hnone
      rcases List.mem_append.1 hp with hp | hp
      · exact h p hp
      · exact (Expr.folded_simplify e).isCondition hnone hp

/-- Whatever is added to a filter, it keeps conditions only. -/
theorem isCondition_ofList (es : List Expr) : ∀ p ∈ (ofList es).predicates, p.IsCondition := by
  have run : ∀ (es : List Expr) (f : Filter), (∀ p ∈ f.predicates, p.IsCondition) →
      ∀ p ∈ (es.foldl and f).predicates, p.IsCondition := by
    intro es
    induction es with
    | nil => exact fun f h => h
    | cons e es ih => exact fun f h => ih _ (isCondition_of_and h e)
  exact run es empty fun p hp => absurd hp List.not_mem_nil

/-- Conditions are kept as they are when they are added to a filter. -/
theorem foldl_and_all {ps qs : List Expr} (h : ∀ p ∈ ps, p.IsCondition) :
    ps.foldl and (all qs) = all (qs ++ ps) := by
  induction ps generalizing qs with
  | nil => rw [List.foldl_nil, List.append_nil]
  | cons p ps ih =>
    obtain ⟨hp, hps⟩ := List.forall_mem_cons.1 h
    have hadd : (all qs).and p = all (qs ++ [p]) := by
      rw [all_and, hp.folded.simplify_eq, hp.asBool, hp.conjuncts]
    rw [List.foldl_cons, hadd, ih hps, List.append_assoc, List.singleton_append]

/-- Conditions are given back by their conjunction. -/
theorem empty_and_conjunction {p : Expr} {ps : List Expr} (h : ∀ q ∈ p :: ps, q.IsCondition) :
    empty.and (Expr.conjunction p ps) = all (p :: ps) := by
  have hp := h p List.mem_cons_self
  obtain ⟨hfolded, hbool, hconjuncts⟩ :=
    Expr.conjunction_spec hp.folded hp.asBool fun q hq => h q (List.mem_cons_of_mem _ hq)
  rw [empty, all_and, hfolded.simplify_eq, hbool, hconjuncts, hp.conjuncts]
  rfl

end Filter

end Clausal
