import Clausal.Proofs.Expr.Paths
import Clausal.Text.Class

/-!
# Well-formed expressions

What an expression needs so that it can be written at all: names and segments of paths are not empty, a named
parameter is one word, and the list of an IN test has an item. Folding constants and taking conjunctions apart
keep this.
-/

namespace Clausal

/-- A path of at least one part, none of them empty. -/
def Path.WellFormed (p : Path) : Prop := p.parts ≠ [] ∧ "" ∉ p.parts

/-- A named parameter that is one word after its colon. -/
def Param.WellFormed : Param → Prop
  | positional _ => True
  | named name => name ≠ "" ∧ ∀ c ∈ name.toList, Text.isWordChar c = true

/-- A literal that has a spelling. -/
def Literal.IsFinite : Literal → Prop
  | float x => x.isFinite = true
  | _ => True

namespace Expr

mutual

/-- An expression that can be written, as far as its names and lists are concerned. -/
def WellFormed : Expr → Prop
  | literal _ | wildcard => True
  | field p => p.WellFormed
  | param p => p.WellFormed
  | binary l _ r => WellFormed l ∧ WellFormed r
  | unary _ e | isNull e _ => WellFormed e
  | isIn e es _ => WellFormed e ∧ es ≠ [] ∧ AllWellFormed es
  | between e l h _ => WellFormed e ∧ WellFormed l ∧ WellFormed h
  | call f es _ => f ≠ "" ∧ AllWellFormed es

def AllWellFormed : List Expr → Prop
  | [] => True
  | e :: es => WellFormed e ∧ AllWellFormed es

end

theorem allWellFormed_iff {es : List Expr} : AllWellFormed es ↔ ∀ e ∈ es, e.WellFormed := by
  induction es with
  | nil => simp [AllWellFormed]
  | cons e es ih => simp [AllWellFormed, ih]

theorem literalsAll_eq_flatMap (es : List Expr) : literalsAll es = es.flatMap literals := by
  induction es with
  | nil => rfl
  | cons e es ih => rw [literalsAll, ih, List.flatMap_cons]

theorem WellFormed.foldConnective {op : BinaryOp} {absorbing : Bool} {l r : Expr} (hl : l.WellFormed)
    (hr : r.WellFormed) : (foldConnective op absorbing l r).WellFormed := by
  unfold Expr.foldConnective
  split
  · exact trivial
  split
  · exact hr
  split
  · exact hl
  · exact ⟨hl, hr⟩

theorem WellFormed.foldNegation {e : Expr} (h : e.WellFormed) : (foldNegation e).WellFormed := by
  unfold Expr.foldNegation
  split
  · exact trivial
  · exact h
  · exact h

/-- Folding needs no new name and empties no list. -/
theorem WellFormed.simplify {e : Expr} (h : e.WellFormed) : e.simplify.WellFormed := by
  induction e using recurse with
  | binary l op r hl hr =>
    cases op with
    | and => exact (hl h.1).foldConnective (hr h.2)
    | or => exact (hl h.1).foldConnective (hr h.2)
    | _ => exact h
  | unary op e he =>
    cases op with
    | not => exact (he h).foldNegation
    | _ => exact h
  | _ => exact h

theorem WellFormed.conjuncts {e x : Expr} (h : e.WellFormed) (hx : x ∈ e.conjuncts) : x.WellFormed := by
  induction e using recurse with
  | binary l op r hl hr =>
    cases op with
    | and =>
      rcases List.mem_append.1 hx with hx | hx
      · exact hl h.1 hx
      · exact hr h.2 hx
    | _ =>
      rw [List.mem_singleton.1 hx]
      exact h
  | _ =>
    rw [List.mem_singleton.1 hx]
    exact h

end Expr

end Clausal
