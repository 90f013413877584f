import Clausal.Proofs.Parse.Expr
import Clausal.Proofs.Parse.Whole

/-!
# Reading back an expression

The tokens of an expression are read as that expression, with its paths as they are read. By induction on the
expression: the left operand is read with the stack as it is, the operator then opens a construct of its own
power, and what follows the right operand closes it again.
-/

namespace Clausal.Parse

open Token (Kind)

variable {m : Aliases} {floor stop : Nat} {stack : List Frame} {follow : Kind → Prop}

/-! ### Closing a construct -/

theorem runs_close_unary {op : UnaryOp} {e : Expr} (h : ∀ k, follow k → binds (Frame.unary op).power k = false) :
    Runs m floor stop [] follow (.operator e) (.unary op :: stack) (.operator (.unary op e)) stack := by
  apply Runs.same
  intro t ht
  simp only [step]
  rw [settle, h _ ht]
  rfl

theorem runs_close_binary {op : BinaryOp} {l r : Expr}
    (h : ∀ k, follow k → binds (Frame.binary l op).power k = false) :
    Runs m floor stop [] follow (.operator r) (.binary l op :: stack) (.operator (.binary l op r)) stack := by
  apply Runs.same
  intro t ht
  simp only [step]
  rw [settle, h _ ht]
  rfl

theorem runs_close_high {e l u : Expr} {n : Bool}
    (h : ∀ k, follow k → binds (Frame.high e n l).power k = false) :
    Runs m floor stop [] follow (.operator u) (.high e n l :: stack) (.operator (.between e l u n)) stack := by
  apply Runs.same
  intro t ht
  simp only [step]
  rw [settle, h _ ht]
  rfl

/-! ### Parentheses -/

/-- Reading an operand in its own right: it may stand under any construct that it fits. -/
def RunsOperand (m : Aliases) (floor stop : Nat) (e : Expr) : Prop :=
  ∀ stack, Fits (topPower floor stack) e →
    Runs m floor stop e.kinds (Follows e.precedence) .operand stack
      (.operator (e.mapPaths (Path.reread m))) stack

theorem follows_rightParen (p : Nat) : Follows p (.symbol .rightParen) :=
  .closing (by decide) (by decide) rfl

private theorem follows_comma (p : Nat) : Follows p (.symbol .comma) :=
  .closing (by decide) (by decide) rfl

theorem fits_zero (e : Expr) : Fits 0 e := fits_of_le fun _ => Nat.zero_le _

theorem runs_paren {e : Expr} (h : RunsOperand m floor stop e) :
    Runs m floor stop (Token.enclosed e.kinds) follow .operand stack
      (.operator (e.mapPaths (Path.reread m))) stack := by
  refine .cons .operand (.group :: stack) (fun t ht => ?_) ?_
  · simp only [step, beginOperand, ht]
  refine (h (.group :: stack) (fits_zero e)).append ?_ (fun _ _ => follows_rightParen _)
  refine .single fun t ht => ?_
  simp only [step]
  rw [settle, ht]
  rfl

/-- An operand is read with or without its parentheses. -/
theorem runs_enclosed {e : Expr} (h : RunsOperand m floor stop e) {outer : Nat} {strict : Bool}
    (hfit : ¬ (e.precedence < outer ∨ (strict ∧ e.precedence = outer)) → Fits (topPower floor stack) e)
    (hfollow : ¬ (e.precedence < outer ∨ (strict ∧ e.precedence = outer)) →
      ∀ k, follow k → Follows e.precedence k) :
    Runs m floor stop (Expr.enclosedKinds e.precedence outer strict e.kinds) follow .operand stack
      (.operator (e.mapPaths (Path.reread m))) stack := by
  unfold Expr.enclosedKinds
  split
  · exact runs_paren h
  · rename_i hbare
    exact (h stack (hfit hbare)).mono (hfollow hbare)

/-- The left operand of an operator. -/
theorem runs_left {e : Expr} (h : RunsOperand m floor stop e) {p : Nat} (hp : 10 ≤ p ∧ p ≤ 80)
    (hfit : topPower floor stack ≤ Precedence.leftPower p)
    (hfollow : ∀ k, follow k → k ≠ .symbol .dot ∧ k ≠ .symbol .leftParen ∧
      leftPower? k = some (Precedence.leftPower p)) :
    Runs m floor stop (Expr.enclosedKinds e.precedence p false e.kinds) follow .operand stack
      (.operator (e.mapPaths (Path.reread m))) stack := by
  refine runs_enclosed h (fun hbare => ?_) (fun hbare k hk => ?_)
  · exact fits_left hfit (by simpa using hbare)
  · obtain ⟨hdot, hparen, hpower⟩ := hfollow k hk
    exact .operator hdot hparen hpower hp (by simpa using hbare)

/-- The right operand of an operator, which is on the stack or is still to be put there. -/
theorem runs_right {e : Expr} (h : RunsOperand m floor stop e) (stack : List Frame) {p : Nat} (hp : p % 10 = 0)
    (htop : topPower floor stack = Precedence.rightPower p)
    (hfollow : p < e.precedence → ∀ k, follow k → Follows e.precedence k) :
    Runs m floor stop (Expr.enclosedKinds e.precedence p true e.kinds) follow .operand stack
      (.operator (e.mapPaths (Path.reread m))) stack := by
  have tighter : ¬ (e.precedence < p ∨ (true ∧ e.precedence = p)) → p < e.precedence := by
    intro hbare
    obtain ⟨hge, hne⟩ := not_or.1 hbare
    exact Nat.lt_of_le_of_ne (Nat.not_lt.1 hge) fun heq => hne ⟨rfl, heq.symm⟩
  refine runs_enclosed h (fun hbare => ?_) (fun hbare => hfollow (tighter hbare))
  rw [htop]
  exact fits_right hp (tighter hbare)

/-! ### Atoms -/

private theorem integer?_natAbs (i : Int64) :
    integer? (decide (i.toInt < 0)) (UInt64.ofNat i.toInt.natAbs) = some (.literal (.integer i)) := by
  have hlow := i.le_toInt
  have hhigh := i.toInt_lt
  have hsize : i.toInt.natAbs < 2 ^ 64 := by omega
  have hback : (if decide (i.toInt < 0) then -((UInt64.ofNat i.toInt.natAbs).toNat : Int)
      else ((UInt64.ofNat i.toInt.natAbs).toNat : Int)) = i.toInt := by
    rw [UInt64.toNat_ofNat_of_lt' hsize]
    by_cases h : i.toInt < 0
    · rw [decide_eq_true h, if_pos rfl]
      omega
    · rw [decide_eq_false h, if_neg (by decide)]
      omega
  simp only [integer?]
  rw [hback, if_pos ⟨hlow, hhigh⟩, Int64.ofInt_toInt]

private theorem runs_number {n : UInt64} {e : Expr} (h : integer? false n = some e) :
    Runs m floor stop [.integer n] follow .operand stack (.operator e) stack := by
  refine .single fun t ht => ?_
  simp only [step]
  rw [beginOperand_integer ht]
  exact readInteger_eq_ok.2 ⟨e, h, rfl⟩

private theorem runs_negative {n : UInt64} {e : Expr} (h : integer? true n = some e) :
    Runs m floor stop [.symbol .minus, .integer n] follow .operand stack (.operator e) stack := by
  refine .cons .negated stack (fun t ht => ?_) (.single fun t ht => ?_)
  · simp only [step, beginOperand, ht]
  · rw [step_negated_integer ht]
    exact readInteger_eq_ok.2 ⟨e, h, rfl⟩

private theorem neg_neg (x : Binary64) : x.neg.neg = x := by
  obtain ⟨negative, code⟩ := x
  simp only [Binary64.neg, Bool.not_not]

theorem runs_literal (l : Literal) :
    Runs m floor stop l.kinds follow .operand stack (.operator (.literal l)) stack := by
  cases l with
  | integer i =>
    have hback := integer?_natAbs i
    rw [Literal.kinds]
    split
    · rename_i h
      rw [decide_eq_true h] at hback
      exact runs_negative hback
    · rename_i h
      rw [decide_eq_false h] at hback
      exact runs_number hback
  | float x =>
    rw [Literal.kinds]
    split
    · refine .cons .negated stack (fun t ht => ?_) (.single fun t ht => ?_)
      · simp only [step, beginOperand, ht]
      · simp only [step, ht, neg_neg]
    · exact .single fun t ht => by simp only [step, beginOperand, ht]
  | boolean b =>
    cases b with
    | true => exact .single fun t ht => by simp only [step, beginOperand, ht]; rfl
    | false => exact .single fun t ht => by simp only [step, beginOperand, ht]; rfl
  | null => exact .single fun t ht => by simp only [step, beginOperand, ht]; rfl
  | string s => exact .single fun t ht => by simp only [step, beginOperand, ht]
  | blob bytes => exact .single fun t ht => by simp only [step, beginOperand, ht]

theorem runs_param (p : Param) :
    Runs m floor stop [p.kind] follow .operand stack (.operator (.param p)) stack := by
  cases p <;> exact .single fun t ht => by simp only [step, beginOperand, ht, Param.kind]

private theorem runs_pointed (names : List String) (before : List String) :
    Runs m floor stop (Path.pointed names) (fun k => k ≠ .symbol .dot ∧ k ≠ .symbol .leftParen)
      (.path before) stack (.operator (.field (Path.resolve m ⟨none, before ++ names⟩))) stack := by
  induction names generalizing before with
  | nil =>
    apply Runs.same
    rintro t ⟨hdot, hparen⟩
    rw [List.append_nil]
    simp only [step]
    split
    · contradiction
    · contradiction
    · rfl
  | cons name names ih =>
    refine .cons (.segment before) stack (fun t ht => ?_) ?_
    · simp only [step, ht]
    refine .cons (.path (before ++ [name])) stack (fun t ht => ?_) ?_
    · simp only [step, ht]
    have hnext := ih (before ++ [name])
    rw [List.append_assoc, List.singleton_append] at hnext
    exact hnext

theorem runs_path {p : Path} (h : p.parts ≠ []) :
    Runs m floor stop p.kinds (fun k => k ≠ .symbol .dot ∧ k ≠ .symbol .leftParen) .operand stack
      (.operator (.field (p.reread m))) stack := by
  rw [Path.kinds, Path.reread]
  cases hparts : p.parts with
  | nil => exact absurd hparts h
  | cons name names =>
    refine .cons (.path [name]) stack (fun t ht => ?_) (runs_pointed names [name])
    simp only [step, beginOperand, ht]

/-! ### Operators and tests -/

private theorem step_operator {e : Expr} {t : Token} {l : Nat} (hpower : leftPower? t.kind = some l)
    (hfit : topPower floor stack ≤ l) :
    step m floor (.operator e) stack t = .ok (openOperator e stack t.kind) :=
  settle_open e (binds_eq_true hpower hfit)

theorem runs_operator (op : BinaryOp) {e : Expr}
    (hfit : topPower floor stack ≤ Precedence.leftPower op.precedence) :
    Runs m floor stop op.kinds follow (.operator e) stack .operand (.binary e op :: stack) := by
  have one : ∀ k, binaryOp? k = some op →
      Runs m floor stop [k] follow (.operator e) stack .operand (.binary e op :: stack) := by
    intro k hk
    refine .single fun t ht => ?_
    have hpower : leftPower? t.kind = some (Precedence.leftPower op.precedence) := by
      simp only [ht, leftPower?, hk]
    rw [step_operator hpower hfit]
    simp only [openOperator, ht, hk]
  cases op
  case notLike =>
    refine .cons (.negatedTest e) stack (fun t ht => ?_) (.single fun t ht => ?_)
    · have hpower : leftPower? t.kind = some (Precedence.leftPower Precedence.compare) := by rw [ht]; rfl
      rw [step_operator hpower hfit, ht]
      rfl
    · simp only [step, ht]
  all_goals exact one _ rfl

theorem head_operator (op : BinaryOp) (ks : List Kind) (k : Kind) :
    (op.kinds ++ ks).headD k ≠ .symbol .dot ∧ (op.kinds ++ ks).headD k ≠ .symbol .leftParen ∧
      leftPower? ((op.kinds ++ ks).headD k) = some (Precedence.leftPower op.precedence) := by
  cases op <;> exact ⟨by simp [BinaryOp.kinds], by simp [BinaryOp.kinds], rfl⟩

/-- A word that begins a test after an operand. -/
private theorem runs_test {e : Expr} (k : Kind) {mode : Mode} {stack' : List Frame}
    (hpower : leftPower? k = some (Precedence.leftPower Precedence.compare))
    (hfit : topPower floor stack ≤ Precedence.leftPower Precedence.compare)
    (hopen : openOperator e stack k = .shift mode stack') :
    Runs m floor stop [k] follow (.operator e) stack mode stack' := by
  refine .single fun t ht => ?_
  rw [← ht] at hpower hopen
  rw [step_operator hpower hfit, hopen]

theorem runs_isNull {e : Expr} (n : Bool)
    (hfit : topPower floor stack ≤ Precedence.leftPower Precedence.compare) :
    Runs m floor stop (.keyword .is :: (Expr.negation n ++ [.keyword .null])) follow (.operator e) stack
      (.operator (.isNull e n)) stack := by
  refine (runs_test (.keyword .is) rfl hfit rfl).seq ?_
  cases n with
  | false => exact .single fun t ht => by simp only [step, ht, if_true]
  | true =>
    refine .cons (.nullTest e true) stack (fun t ht => ?_) (.single fun t ht => ?_)
    · simp [step, ht]
    · simp only [step, ht, if_true]

theorem runs_in {e : Expr} (n : Bool)
    (hfit : topPower floor stack ≤ Precedence.leftPower Precedence.compare) :
    Runs m floor stop (Expr.negation n ++ [.keyword .in]) follow (.operator e) stack (.list e n) stack := by
  cases n with
  | false => exact runs_test _ rfl hfit rfl
  | true =>
    refine (runs_test (.keyword .not) rfl hfit rfl).seq (.single fun t ht => ?_)
    simp only [step, ht]

theorem runs_between {e : Expr} (n : Bool)
    (hfit : topPower floor stack ≤ Precedence.leftPower Precedence.compare) :
    Runs m floor stop (Expr.negation n ++ [.keyword .between]) follow (.operator e) stack .operand
      (.low e n :: stack) := by
  cases n with
  | false => exact runs_test _ rfl hfit rfl
  | true =>
    refine (runs_test (.keyword .not) rfl hfit rfl).seq (.single fun t ht => ?_)
    simp only [step, ht]

theorem head_negation {n : Bool} {k : Kind} (ks : List Kind) (d : Kind)
    (hk : k = .keyword .in ∨ k = .keyword .between) :
    (Expr.negation n ++ k :: ks).headD d ≠ .symbol .dot ∧
      (Expr.negation n ++ k :: ks).headD d ≠ .symbol .leftParen ∧
      leftPower? ((Expr.negation n ++ k :: ks).headD d) = some (Precedence.leftPower Precedence.compare) := by
  rcases hk with rfl | rfl <;> cases n <;> exact ⟨by simp [Expr.negation], by simp [Expr.negation], rfl⟩

/-! ### Lists -/

/-- The items of a list up to its closing parenthesis, where `frame` holds the items that were read before. -/
theorem runs_items (frame : List Expr → Frame) (whole : List Expr → Expr)
    (hpower : ∀ before, (frame before).power = 0)
    (hcomma : ∀ e before t, t.kind = .symbol .comma →
      step m floor (.operator e) (frame before :: stack) t = .ok (.shift .operand (frame (e :: before) :: stack)))
    (hclose : ∀ e before t, t.kind = .symbol .rightParen →
      step m floor (.operator e) (frame before :: stack) t =
        .ok (.shift (.operator (whole (e :: before).reverse)) stack))
    {es : List Expr} (hne : es ≠ []) (h : ∀ e ∈ es, RunsOperand m floor stop e) (before : List Expr) :
    Runs m floor stop (Expr.kindsAll es ++ [.symbol .rightParen]) follow .operand (frame before :: stack)
      (.operator (whole (before.reverse ++ es.map (Expr.mapPaths (Path.reread m))))) stack := by
  induction es generalizing before with
  | nil => exact absurd rfl hne
  | cons e es ih =>
    have hfit : Fits (topPower floor (frame before :: stack)) e := by
      rw [topPower, hpower]
      exact fits_zero e
    have hfirst := h e List.mem_cons_self (frame before :: stack) hfit
    cases es with
    | nil =>
      refine hfirst.append (.single fun t ht => ?_) fun _ _ => follows_rightParen _
      rw [hclose _ _ t ht, List.reverse_cons]
      rfl
    | cons f es =>
      have hrest := ih (by simp) (fun x hx => h x (List.mem_cons_of_mem _ hx))
        (e.mapPaths (Path.reread m) :: before)
      rw [List.reverse_cons, List.append_assoc] at hrest
      rw [Expr.kindsAll, List.append_assoc]
      refine hfirst.append (.cons _ _ (fun t ht => ?_) hrest) fun _ _ => follows_comma _
      exact hcomma _ _ t ht

end Clausal.Parse
