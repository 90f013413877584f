import Clausal.Parse.Expr
import Clausal.Proofs.Expr.Spelling

/-!
# Reading the tokens of an expression

Reading an expression goes from one mode and stack to another with every token. `Runs` says that it gets from
one to the other by the given tokens, if what follows is allowed, and composes. An expression that stands where
its outermost operator binds as tightly as the innermost open construct asks for is read as one operand, with
the stack as it was; what follows must bind looser than everything that is still open at its right edge.
-/

namespace Clausal

/-- What a path is read as: its first part is the alias if it is a bound one. -/
def Path.reread (m : Aliases) (p : Path) : Path := Path.resolve m ⟨none, p.parts⟩

theorem BinaryOp.precedence_tens (op : BinaryOp) :
    op.precedence % 10 = 0 ∧ 10 ≤ op.precedence ∧ op.precedence ≤ 80 := by
  cases op <;> decide

namespace Parse

open Token (Kind)

/-- The kind of the next token; the end of the text has a kind too. -/
def nextKind : List Token → Kind
  | [] => .eof
  | t :: _ => t.kind

theorem nextKind_append {ts rest : List Token} {ks : List Kind} (h : ts.map (·.kind) = ks) :
    nextKind (ts ++ rest) = ks.headD (nextKind rest) := by
  subst h
  cases ts <;> rfl

section Runs

variable (m : Aliases) (floor stop : Nat)

/-- The given tokens lead from one mode and stack to another, if what follows them is allowed. -/
def Runs (ks : List Kind) (follow : Kind → Prop) (mode : Mode) (stack : List Frame) (mode' : Mode)
    (stack' : List Frame) : Prop :=
  ∀ ts rest, ts.map (·.kind) = ks → follow (nextKind rest) →
    run m floor stop (ts ++ rest) mode stack = run m floor stop rest mode' stack'

variable {m floor stop} {ks ls : List Kind} {k : Kind} {follow follow' : Kind → Prop}
  {mode mode' mode'' : Mode} {stack stack' stack'' : List Frame}

theorem Runs.mono (h : Runs m floor stop ks follow mode stack mode' stack') (hf : ∀ k, follow' k → follow k) :
    Runs m floor stop ks follow' mode stack mode' stack' :=
  fun ts rest hts hrest => h ts rest hts (hf _ hrest)

theorem Runs.append (h : Runs m floor stop ks follow mode stack mode' stack')
    (h' : Runs m floor stop ls follow' mode' stack' mode'' stack'')
    (hf : ∀ k, follow' k → follow (ls.headD k)) :
    Runs m floor stop (ks ++ ls) follow' mode stack mode'' stack'' := by
  intro ts rest hts hrest
  obtain ⟨ts₁, ts₂, rfl, h₁, h₂⟩ := List.map_eq_append_iff.1 hts
  rw [List.append_assoc, h ts₁ (ts₂ ++ rest) h₁ (by rw [nextKind_append h₂]; exact hf _ hrest),
    h' ts₂ rest h₂ hrest]

/-- What may be followed by anything. -/
theorem Runs.seq (h : Runs m floor stop ks (fun _ => True) mode stack mode' stack')
    (h' : Runs m floor stop ls follow mode' stack' mode'' stack'') :
    Runs m floor stop (ks ++ ls) follow mode stack mode'' stack'' :=
  h.append h' fun _ _ => trivial

/-- What passes no token. -/
theorem Runs.close (h : Runs m floor stop ks follow mode stack mode' stack')
    (h' : Runs m floor stop [] follow mode' stack' mode'' stack'') :
    Runs m floor stop ks follow mode stack mode'' stack'' := by
  have hboth := h.append h' fun _ hk => hk
  rwa [List.append_nil] at hboth

/-- A token that is passed. -/
theorem Runs.cons (mode' : Mode) (stack' : List Frame)
    (hstep : ∀ t, t.kind = k → step m floor mode stack t = .ok (.shift mode' stack'))
    (h : Runs m floor stop ks follow mode' stack' mode'' stack'') :
    Runs m floor stop (k :: ks) follow mode stack mode'' stack'' := by
  intro ts rest hts hrest
  obtain ⟨t, ts, rfl, ht, hts⟩ := List.map_eq_cons_iff.1 hts
  rw [List.cons_append, run, hstep t ht]
  exact h ts rest hts hrest

theorem Runs.refl : Runs m floor stop [] follow mode stack mode stack := by
  intro ts rest hts _
  rw [List.map_eq_nil_iff.1 hts, List.nil_append]

theorem Runs.single (hstep : ∀ t, t.kind = k → step m floor mode stack t = .ok (.shift mode' stack')) :
    Runs m floor stop [k] follow mode stack mode' stack' :=
  .cons mode' stack' hstep .refl

/-- The first token is treated in the same way in both places. -/
theorem Runs.of_step_eq (h : Runs m floor stop (k :: ks) follow mode' stack' mode'' stack'')
    (hstep : ∀ t, t.kind = k → step m floor mode stack t = step m floor mode' stack' t) :
    Runs m floor stop (k :: ks) follow mode stack mode'' stack'' := by
  intro ts rest hts hrest
  have hback := h ts rest hts hrest
  obtain ⟨t, ts, rfl, ht, hts⟩ := List.map_eq_cons_iff.1 hts
  rw [List.cons_append, run] at hback ⊢
  rw [hstep t ht, hback]

/-- What follows is treated in the same way in both places. -/
theorem Runs.same (h : ∀ t, follow t.kind → step m floor mode stack t = step m floor mode' stack' t) :
    Runs m floor stop [] follow mode stack mode' stack' := by
  intro ts rest hts hrest
  rw [List.map_eq_nil_iff.1 hts, List.nil_append]
  cases rest with
  | nil => rw [run, run, h _ hrest]
  | cons t rest => rw [run, run, h t hrest]

end Runs

/-! ### What closes a construct -/

/-- The power that an operator needs to bind the operand at hand. -/
def topPower (floor : Nat) : List Frame → Nat
  | [] => floor
  | f :: _ => f.power

/-- The least power in what is still open after an expression of a precedence. -/
def edge (p : Nat) : Nat :=
  if p = Precedence.not then Precedence.rightPower p + 1
  else if p = Precedence.neg then Precedence.leftPower p
  else Precedence.rightPower p

/-- A token that does not go on with an expression of a precedence. -/
def Follows (p : Nat) (k : Kind) : Prop :=
  k ≠ .symbol .dot ∧ k ≠ .symbol .leftParen ∧ ∀ l, leftPower? k = some l → l < edge p

theorem binds_eq_false {p power : Nat} {k : Kind} (h : Follows p k) (hle : edge p ≤ power) :
    binds power k = false := by
  unfold binds
  split
  · rename_i l hl
    have hlt := h.2.2 l hl
    exact decide_eq_false (by omega)
  · rfl

theorem binds_eq_true {power l : Nat} {k : Kind} (h : leftPower? k = some l) (hle : power ≤ l) :
    binds power k = true := by
  rw [binds, h]
  exact decide_eq_true hle

theorem settle_open {floor : Nat} {t : Token} {stack : List Frame} (e : Expr)
    (h : binds (topPower floor stack) t.kind = true) :
    settle floor t e stack = .ok (openOperator e stack t.kind) := by
  cases stack with
  | nil =>
    rw [topPower] at h
    rw [settle, h, if_pos rfl]
  | cons f stack =>
    rw [topPower] at h
    unfold settle
    rw [if_pos h]

/-- An expression that may stand under a construct of a power without parentheses. -/
def Fits (power : Nat) : Expr → Prop
  | .binary _ op _ => power ≤ Precedence.leftPower op.precedence
  | .isNull .. | .isIn .. | .between .. => power ≤ Precedence.leftPower Precedence.compare
  | .literal _ | .field _ | .param _ | .wildcard | .unary .. | .call .. => True

/-! ### Powers -/

theorem edge_binary (op : BinaryOp) : edge op.precedence = Precedence.rightPower op.precedence := by
  cases op <;> decide

/-- The precedences that an expression may have. -/
theorem precedence_range (e : Expr) :
    (e.precedence % 10 = 0 ∧ 10 ≤ e.precedence ∧ e.precedence ≤ 100) ∨ e.precedence = Precedence.not := by
  cases e with
  | binary l op r =>
    obtain ⟨htens, hlow, hhigh⟩ := BinaryOp.precedence_tens op
    exact .inl ⟨htens, hlow, Nat.le_trans hhigh (by decide)⟩
  | unary op e =>
    cases op with
    | neg => exact .inl (by decide : Precedence.neg % 10 = 0 ∧ 10 ≤ Precedence.neg ∧ Precedence.neg ≤ 100)
    | not => exact .inr rfl
  | isNull e n =>
    exact .inl (by decide : Precedence.compare % 10 = 0 ∧ 10 ≤ Precedence.compare ∧ Precedence.compare ≤ 100)
  | isIn e es n =>
    exact .inl (by decide : Precedence.compare % 10 = 0 ∧ 10 ≤ Precedence.compare ∧ Precedence.compare ≤ 100)
  | between e l h n =>
    exact .inl (by decide : Precedence.compare % 10 = 0 ∧ 10 ≤ Precedence.compare ∧ Precedence.compare ≤ 100)
  | _ => exact .inl (by decide : Precedence.atom % 10 = 0 ∧ 10 ≤ Precedence.atom ∧ Precedence.atom ≤ 100)

/-- What binds at least as tightly leaves nothing looser open. -/
theorem edge_mono {p : Nat} {e : Expr} (hle : p ≤ e.precedence) : edge p ≤ edge e.precedence := by
  have he := precedence_range e
  generalize e.precedence = q at *
  unfold edge
  split_ifs <;>
    simp only [Precedence.leftPower, Precedence.rightPower, Precedence.not, Precedence.neg] at * <;> omega

theorem fits_of_le {power : Nat} {e : Expr}
    (h : e.precedence ≠ Precedence.not → power ≤ Precedence.leftPower e.precedence) : Fits power e := by
  cases e with
  | binary l op r =>
    refine h fun hnot => ?_
    have htens := (BinaryOp.precedence_tens op).1
    rw [Expr.precedence] at hnot
    rw [hnot] at htens
    exact absurd htens (by decide)
  | isNull e n => exact h (by decide : Precedence.compare ≠ Precedence.not)
  | isIn e es n => exact h (by decide : Precedence.compare ≠ Precedence.not)
  | between e l u n => exact h (by decide : Precedence.compare ≠ Precedence.not)
  | _ => exact trivial

/-- An operand on the left fits where its operator does. -/
theorem fits_left {power p : Nat} {e : Expr} (h : power ≤ Precedence.leftPower p) (hle : p ≤ e.precedence) :
    Fits power e := by
  apply fits_of_le
  intro _
  simp only [Precedence.leftPower] at *
  omega

/-- An operand on the right that binds tighter than its operator fits after it. -/
theorem fits_right {p : Nat} {e : Expr} (hp : p % 10 = 0) (hlt : p < e.precedence) :
    Fits (Precedence.rightPower p) e := by
  apply fits_of_le
  intro hnot
  have he := precedence_range e
  simp only [Precedence.leftPower, Precedence.rightPower] at *
  omega

theorem Follows.of_le {p : Nat} {e : Expr} (hle : p ≤ e.precedence) {k : Kind} (h : Follows p k) :
    Follows e.precedence k :=
  ⟨h.1, h.2.1, fun l hl => Nat.lt_of_lt_of_le (h.2.2 l hl) (edge_mono hle)⟩

/-- An operator of a precedence may follow what binds as tightly. -/
theorem Follows.operator {p : Nat} {e : Expr} {k : Kind} (hdot : k ≠ .symbol .dot)
    (hparen : k ≠ .symbol .leftParen) (hk : leftPower? k = some (Precedence.leftPower p))
    (hp : 10 ≤ p ∧ p ≤ 80) (hle : p ≤ e.precedence) : Follows e.precedence k := by
  refine ⟨hdot, hparen, fun l hl => ?_⟩
  obtain rfl : l = Precedence.leftPower p := Option.some.inj (hl.symm.trans hk)
  have he := precedence_range e
  generalize e.precedence = q at *
  unfold edge
  split_ifs <;>
    simp only [Precedence.leftPower, Precedence.rightPower, Precedence.not, Precedence.neg] at * <;> omega

/-- A token that goes on with no expression. -/
theorem Follows.closing {p : Nat} {k : Kind} (hdot : k ≠ .symbol .dot) (hparen : k ≠ .symbol .leftParen)
    (hk : leftPower? k = none) : Follows p k :=
  ⟨hdot, hparen, fun l hl => by rw [hk] at hl; cases hl⟩

end Parse

end Clausal
