import Clausal.Proofs.Statement.Canonical
import Clausal.Proofs.Parse.Reads

/-!
# Operand positions

The writer decides by precedences where an operand needs parentheses, and the reader decides by powers where an
operand ends. The two agree in every position: the text of an expression that stands alone is read by a reader that
takes all operators, and its text to the right of an operator by a reader that takes only operators that bind
tighter. Both stop where the text ends, whatever follows it, unless what follows would go on with the operand.
-/

namespace Clausal.Parse

open Token (Kind)

/-- A token that does not go on with an operand, of which operators of at least a power would be a part. -/
def Ends (power : Nat) (k : Kind) : Prop :=
  k ≠ .symbol .dot ∧ k ≠ .symbol .leftParen ∧ ∀ l, leftPower? k = some l → l < power

theorem Ends.follows {op : BinaryOp} {k : Kind} (h : Ends (Precedence.rightPower op.precedence) k) :
    Follows op.precedence k := by
  rw [← edge_binary op] at h
  exact h

theorem Ends.binds_eq_false {power : Nat} {k : Kind} (h : Ends power k) : binds power k = false := by
  unfold binds
  split
  · rename_i l hl
    exact decide_eq_false (Nat.not_le.2 (h.2.2 l hl))
  · rfl

section

variable {m : Aliases} {stop : Nat} {e : Expr} (h : e.WellFormed) (hresolved : ∀ p ∈ e.paths, p.Resolved m)

include h hresolved

/-- An expression that stands alone. -/
private theorem runs_alone : Runs m 0 stop e.kinds Closing .operand [] (.operator e) [] := by
  have hoperand : RunsOperand m 0 stop e := runs_operand h
  have hruns := (hoperand [] (fits_zero e)).mono fun _ hk => Closing.follows hk _
  rwa [Expr.mapPaths_reread h hresolved] at hruns

/-- The right operand of an operator, which is still to be added. -/
private theorem runs_after (op : BinaryOp) :
    Runs m (Precedence.rightPower op.precedence) stop
      (Expr.enclosedKinds e.precedence op.precedence true e.kinds)
      (Ends (Precedence.rightPower op.precedence)) .operand [] (.operator e) [] := by
  -- The operator is not on the stack: its power is the floor from which the reader starts.
  have hoperand : RunsOperand m (Precedence.rightPower op.precedence) stop e := runs_operand h
  have hruns := runs_right hoperand [] op.precedence_tens.1 rfl
    fun hlt _ (hk : Ends (Precedence.rightPower op.precedence) _) => hk.follows.of_le (Nat.le_of_lt hlt)
  rwa [Expr.mapPaths_reread h hresolved] at hruns

end

/-- Writing and reading expressions agree in every operand position. -/
theorem expressionAbove_render {d : Dialect} (hd : d.quote = '"') {m : Aliases} {e : Expr} (h : e.WellFormed)
    (hfinite : ∀ l ∈ e.literals, l.IsFinite) (hresolved : ∀ p ∈ e.paths, p.Resolved m) (stop : Nat) :
    (∀ ts rest, ts.map (·.kind) = (Token.scan (e.render d)).map (·.kind) → Closing (nextKind rest) →
      (expressionAbove 0).run ⟨ts ++ rest, stop, m⟩ = .ok (e, ⟨rest, stop, m⟩)) ∧
    ∀ (op : BinaryOp) ts rest,
      ts.map (·.kind) = (Token.scan (e.renderIn d op.precedence true)).map (·.kind) →
      Ends (Precedence.rightPower op.precedence) (nextKind rest) →
      (expressionAbove (Precedence.rightPower op.precedence)).run ⟨ts ++ rest, stop, m⟩ =
        .ok (e, ⟨rest, stop, m⟩) := by
  have hspells := Expr.spells hd h hfinite
  constructor
  · intro ts rest hts hrest
    have hkinds : (Token.scan (e.render d)).map (·.kind) = e.kinds := hspells.kinds_eq
    exact expressionAbove_of_runs (runs_alone h hresolved) (hts.trans hkinds) hrest
      (binds_eq_false_of_none hrest.2.2)
  · intro op ts rest hts hrest
    have hkinds : (Token.scan (e.renderIn d op.precedence true)).map (·.kind) =
        Expr.enclosedKinds e.precedence op.precedence true e.kinds :=
      (Expr.spells_enclosed e.precedence op.precedence true hspells).kinds_eq
    exact expressionAbove_of_runs (runs_after h hresolved op) (hts.trans hkinds) hrest hrest.binds_eq_false

/-- `NOT p.price BETWEEN -1 AND :high`. -/
private def outside : Expr :=
  .unary .not (.between (.field ⟨some "p", ["price"]⟩) (.literal (.integer (-1))) (.param (.named "high")) false)

/-- Alone, the expression is read to the end of the text. To the right of AND it stands without parentheses and ends
before OR, and to the right of a comparison it stands in parentheses and ends before a comparison. -/
theorem expressionAbove_render_outside :
    let m : Aliases := Dictionary.empty.insert "p" (.opaqueNamed "product")
    let later : List Token := [⟨.keyword .or, ⟨0, 2⟩⟩]
    let compared : List Token := [⟨.symbol .lt, ⟨0, 1⟩⟩]
    (expressionAbove 0).run ⟨Token.scan "NOT p.price BETWEEN -1 AND :high" ++ [], 32, m⟩ = .ok (outside, ⟨[], 32, m⟩) ∧
      (expressionAbove (Precedence.rightPower BinaryOp.and.precedence)).run
        ⟨Token.scan "NOT p.price BETWEEN -1 AND :high" ++ later, 2, m⟩ = .ok (outside, ⟨later, 2, m⟩) ∧
      (expressionAbove (Precedence.rightPower BinaryOp.eq.precedence)).run
        ⟨Token.scan "(NOT p.price BETWEEN -1 AND :high)" ++ compared, 1, m⟩ = .ok (outside, ⟨compared, 1, m⟩) := by
  intro m later compared
  have hwell : outside.WellFormed := by
    simp [outside, Expr.WellFormed, Path.WellFormed, Path.parts, Param.WellFormed]
    decide
  have hfinite : ∀ l ∈ outside.literals, l.IsFinite := by
    simp [outside, Expr.literals, Literal.IsFinite]
  have hresolved : ∀ p ∈ outside.paths, p.Resolved m := by
    simp [outside, Expr.paths, Path.Resolved]
    rfl
  have hends : ∀ (power : Nat) (k : Kind), k ≠ .symbol .dot → k ≠ .symbol .leftParen →
      (leftPower? k).all (· < power) = true → Ends power k := by
    intro power k hdot hparen hall
    refine ⟨hdot, hparen, fun l hl => ?_⟩
    rw [hl] at hall
    exact of_decide_eq_true hall
  have halone := (expressionAbove_render (d := .canonical) rfl hwell hfinite hresolved 32).1
  have hand := (expressionAbove_render (d := .canonical) rfl hwell hfinite hresolved 2).2 .and
  have heq := (expressionAbove_render (d := .canonical) rfl hwell hfinite hresolved 1).2 .eq
  exact ⟨halone _ [] (by rfl) (by decide),
    hand _ later (by rfl) (hends _ _ (by decide) (by decide) (by decide)),
    heq _ compared (by rfl) (hends _ _ (by decide) (by decide) (by decide))⟩

end Clausal.Parse
