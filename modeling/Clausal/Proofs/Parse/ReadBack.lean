import Clausal.Proofs.Parse.Operand

/-!
# Every expression is read back

The induction on expressions: the tokens of a well-formed expression are read as that expression with its paths
as they are read. What is left to see is where an expression may begin, since a minus sign before a number and
a parenthesis or a word after the name of a function are read in their own ways.
-/

namespace Clausal.Parse

open Token (Kind)

variable {m : Aliases} {floor stop : Nat} {stack : List Frame} {follow : Kind → Prop}

/-! ### Where expressions begin -/

/-- No number, so a minus sign before it is an operator. -/
private def Wordy (k : Kind) : Prop := (∀ n, k ≠ .integer n) ∧ ∀ x, k ≠ .float x

private theorem literal_begins (l : Literal) :
    ∃ k ks, l.kinds = k :: ks ∧ k ≠ .symbol .rightParen ∧ k ≠ .keyword .distinct ∧
      (l.isNumeric = false → Wordy k) := by
  cases l with
  | integer i =>
    rw [Literal.kinds]
    split
    · exact ⟨_, _, rfl, by simp, by simp, fun h => by cases h⟩
    · exact ⟨_, _, rfl, by simp, by simp, fun h => by cases h⟩
  | float x =>
    rw [Literal.kinds]
    split
    · exact ⟨_, _, rfl, by simp, by simp, fun h => by cases h⟩
    · exact ⟨_, _, rfl, by simp, by simp, fun h => by cases h⟩
  | boolean b => cases b <;> exact ⟨_, _, rfl, by simp, by simp, fun _ => ⟨by simp, by simp⟩⟩
  | _ => exact ⟨_, _, rfl, by simp, by simp, fun _ => ⟨by simp, by simp⟩⟩

private theorem path_begins {p : Path} (h : p.WellFormed) : ∃ name ks, p.kinds = .identifier name :: ks := by
  rw [Path.kinds]
  cases hparts : p.parts with
  | nil => exact absurd hparts h.1
  | cons name names => exact ⟨name, _, rfl⟩

private theorem enclosed_begins {e : Expr} {outer : Nat} {strict : Bool}
    (h : ∃ k ks, e.kinds = k :: ks ∧ k ≠ .symbol .rightParen ∧ k ≠ .keyword .distinct) :
    ∃ k ks, Expr.enclosedKinds e.precedence outer strict e.kinds = k :: ks ∧
      k ≠ .symbol .rightParen ∧ k ≠ .keyword .distinct := by
  unfold Expr.enclosedKinds
  split
  · exact ⟨_, _, rfl, by simp, by simp⟩
  · exact h

private theorem append_begins {ks : List Kind} (ls : List Kind)
    (h : ∃ k ks', ks = k :: ks' ∧ k ≠ .symbol .rightParen ∧ k ≠ .keyword .distinct) :
    ∃ k ks', ks ++ ls = k :: ks' ∧ k ≠ .symbol .rightParen ∧ k ≠ .keyword .distinct := by
  obtain ⟨k, ks', rfl, hk⟩ := h
  exact ⟨k, ks' ++ ls, List.cons_append, hk⟩

theorem kinds_begin {e : Expr} (h : e.WellFormed) :
    ∃ k ks, e.kinds = k :: ks ∧ k ≠ .symbol .rightParen ∧ k ≠ .keyword .distinct := by
  induction e using Expr.recurse with
  | literal l =>
    obtain ⟨k, ks, hks, hparen, hdistinct, -⟩ := literal_begins l
    exact ⟨k, ks, hks, hparen, hdistinct⟩
  | field p =>
    obtain ⟨name, ks, hks⟩ := path_begins h
    exact ⟨_, ks, hks, by simp, by simp⟩
  | param p => cases p <;> exact ⟨_, _, rfl, by simp [Param.kind], by simp [Param.kind]⟩
  | wildcard => exact ⟨_, _, rfl, by simp, by simp⟩
  | binary l op r hl hr =>
    rw [Expr.kinds, List.append_assoc]
    exact append_begins _ (enclosed_begins (hl h.1))
  | unary op e he => cases op <;> exact ⟨_, _, rfl, by simp, by simp⟩
  | isNull e n he =>
    rw [Expr.kinds]
    exact append_begins _ (enclosed_begins (he h))
  | isIn e es n he hes =>
    rw [Expr.kinds]
    exact append_begins _ (enclosed_begins (he h.1))
  | between e l u n he hl hu =>
    rw [Expr.kinds]
    exact append_begins _ (enclosed_begins (he h.1))
  | call f es distinct hes => exact ⟨_, _, rfl, by simp, by simp⟩

theorem kindsAll_begin {es : List Expr} (hne : es ≠ []) (h : ∀ e ∈ es, e.WellFormed) (ls : List Kind) :
    ∃ k ks, Expr.kindsAll es ++ ls = k :: ks ∧ k ≠ .symbol .rightParen ∧ k ≠ .keyword .distinct := by
  cases es with
  | nil => exact absurd rfl hne
  | cons e es =>
    have hfirst := kinds_begin (h e List.mem_cons_self)
    cases es with
    | nil => exact append_begins ls hfirst
    | cons f es =>
      rw [Expr.kindsAll, List.append_assoc]
      exact append_begins _ hfirst

/-- An operand after a minus sign begins with no number, unless it is one and stands in parentheses. -/
private theorem negated_begins {e : Expr} (h : e.WellFormed) (hnumber : e.isNumber = false) :
    ∃ k ks, Expr.enclosedKinds e.precedence Precedence.atom false e.kinds = k :: ks ∧ Wordy k := by
  have paren : ∀ {inner : Nat} {ks : List Kind}, inner < Precedence.atom →
      ∃ k ks', Expr.enclosedKinds inner Precedence.atom false ks = k :: ks' ∧ Wordy k := by
    intro inner ks hlt
    rw [Expr.enclosedKinds, if_pos (.inl hlt)]
    exact ⟨_, _, rfl, by simp, by simp⟩
  cases e with
  | binary l op r => exact paren op.precedence_lt_atom
  | unary op e => exact paren op.precedence_lt_atom
  | isNull e n => exact paren (by decide : Precedence.compare < Precedence.atom)
  | isIn e es n => exact paren (by decide : Precedence.compare < Precedence.atom)
  | between e l u n => exact paren (by decide : Precedence.compare < Precedence.atom)
  | literal l =>
    obtain ⟨k, ks, hks, -, -, hwordy⟩ := literal_begins l
    exact ⟨k, ks, hks, hwordy hnumber⟩
  | field p =>
    obtain ⟨name, ks, hks⟩ := path_begins h
    exact ⟨_, ks, hks, by simp, by simp⟩
  | param p => cases p <;> exact ⟨_, _, rfl, by simp [Param.kind], by simp [Param.kind]⟩
  | wildcard => exact ⟨_, _, rfl, by simp, by simp⟩
  | call f es distinct => exact ⟨_, _, rfl, by simp, by simp⟩

/-- After a minus sign, what is no number is an operand. -/
private theorem Runs.negated {k : Kind} {ks : List Kind} (hk : Wordy k) {mode : Mode} {stack' : List Frame}
    (h : Runs m floor stop (k :: ks) follow .operand (.unary .neg :: stack) mode stack') :
    Runs m floor stop (.symbol .minus :: k :: ks) follow .operand stack mode stack' := by
  refine .cons .negated stack (fun t ht => ?_) (h.of_step_eq fun t ht => ?_)
  · simp only [step, beginOperand, ht]
  · simp only [step]
    split
    · exact absurd (ht.symm.trans ‹_›) (hk.1 _)
    · exact absurd (ht.symm.trans ‹_›) (hk.2 _)
    · rfl

/-! ### Calls -/

private theorem step_item (e s : Expr) (n : Bool) (before : List Expr) :
    (∀ t, t.kind = .symbol .comma →
      step m floor (.operator e) (.item s n before :: stack) t =
        .ok (.shift .operand (.item s n (e :: before) :: stack))) ∧
    ∀ t, t.kind = .symbol .rightParen →
      step m floor (.operator e) (.item s n before :: stack) t =
        .ok (.shift (.operator (.isIn s (e :: before).reverse n)) stack) := by
  constructor <;> intro t ht <;> simp only [step] <;> rw [settle, ht] <;> rfl

private theorem step_argument (e : Expr) (f : String) (d : Bool) (before : List Expr) :
    (∀ t, t.kind = .symbol .comma →
      step m floor (.operator e) (.argument f d before :: stack) t =
        .ok (.shift .operand (.argument f d (e :: before) :: stack))) ∧
    ∀ t, t.kind = .symbol .rightParen →
      step m floor (.operator e) (.argument f d before :: stack) t =
        .ok (.shift (.operator (.call f (e :: before).reverse d)) stack) := by
  constructor <;> intro t ht <;> simp only [step] <;> rw [settle, ht] <;> rfl

private theorem runs_arguments {f : String} {d : Bool} {es : List Expr}
    (hes : ∀ e ∈ es, e.WellFormed) (h : ∀ e ∈ es, RunsOperand m floor stop e) {mode : Mode}
    (hmode : ∀ t, t.kind ≠ .keyword .distinct → step m floor mode stack t = beginArgument f d stack t) :
    Runs m floor stop (Expr.kindsAll es ++ [.symbol .rightParen]) follow mode stack
      (.operator (.call f (es.map (Expr.mapPaths (Path.reread m))) d)) stack := by
  by_cases hne : es = []
  · subst hne
    refine .single fun t ht => ?_
    rw [hmode t (by simp [ht]), beginArgument, if_pos ht]
    rfl
  · have hitems : Runs m floor stop (Expr.kindsAll es ++ [.symbol .rightParen]) follow .operand
        (.argument f d [] :: stack) (.operator (.call f (es.map (Expr.mapPaths (Path.reread m))) d)) stack :=
      runs_items (.argument f d) (fun es => .call f es d) (fun _ => rfl)
        (fun e before => (step_argument e f d before).1) (fun e before => (step_argument e f d before).2) hne h []
    obtain ⟨k, ks, hks, hparen, hdistinct⟩ := kindsAll_begin hne hes [.symbol .rightParen]
    rw [hks] at hitems ⊢
    refine hitems.of_step_eq fun t ht => ?_
    rw [hmode t (by rw [ht]; exact hdistinct), beginArgument, if_neg (by rw [ht]; exact hparen)]
    rfl

/-! ### Every expression -/

private theorem edge_unary (op : UnaryOp) : edge op.precedence ≤ (Frame.unary op).power := by
  cases op <;> decide

private theorem fits_not {e : Expr} (h : Precedence.not ≤ e.precedence) : Fits (Frame.unary .not).power e := by
  apply fits_of_le
  intro hnot
  have he := precedence_range e
  simp only [Frame.power, Precedence.leftPower, Precedence.rightPower, Precedence.not] at *
  omega

private theorem fits_neg {e : Expr} (h : Precedence.atom ≤ e.precedence) : Fits (Frame.unary .neg).power e := by
  apply fits_of_le
  intro _
  simp only [Frame.power, Precedence.leftPower, Precedence.neg, Precedence.atom] at *
  omega

variable {e l r : Expr}

private theorem runsOperand_binary (op : BinaryOp) (hl : RunsOperand m floor stop l) (hr : RunsOperand m floor stop r) :
    RunsOperand m floor stop (.binary l op r) := by
  intro stack hfit
  obtain ⟨htens, hlow, hhigh⟩ := op.precedence_tens
  rw [Expr.kinds, List.append_assoc]
  refine (runs_left hl ⟨hlow, hhigh⟩ hfit fun _ hk => hk).append ?_ fun k _ => head_operator op _ k
  refine (runs_operator op hfit).seq ?_
  refine (runs_right hr (.binary (l.mapPaths (Path.reread m)) op :: stack) htens rfl fun hlt k hk => ?_).close ?_
  · exact hk.of_le (Nat.le_of_lt hlt)
  · exact runs_close_binary fun k hk => binds_eq_false hk (Nat.le_of_eq (edge_binary op))

private theorem runs_negation (op : UnaryOp) (e : Expr) :
    Runs m floor stop [] (Follows op.precedence) (.operator (e.mapPaths (Path.reread m))) (.unary op :: stack)
      (.operator (.unary op (e.mapPaths (Path.reread m)))) stack :=
  runs_close_unary fun _ hk => binds_eq_false hk (edge_unary op)

private theorem runsOperand_not (he : RunsOperand m floor stop e) : RunsOperand m floor stop (.unary .not e) := by
  intro stack _
  rw [Expr.kinds]
  refine .cons .operand (.unary .not :: stack) (fun t ht => ?_) ?_
  · simp only [step, beginOperand, ht]
  have hoperand : Runs m floor stop (Expr.enclosedKinds e.precedence Precedence.not false e.kinds)
      (Follows Precedence.not) .operand (.unary .not :: stack) (.operator (e.mapPaths (Path.reread m)))
      (.unary .not :: stack) :=
    runs_enclosed he (fun hbare => fits_not (by simpa using hbare))
      fun hbare k hk => hk.of_le (by simpa using hbare)
  exact hoperand.close (runs_negation .not e)

private theorem runsOperand_neg (h : e.WellFormed) (he : RunsOperand m floor stop e) :
    RunsOperand m floor stop (.unary .neg e) := by
  intro stack _
  rw [Expr.kinds]
  -- A number stands in parentheses, since the minus sign would be read as its own.
  split
  · exact Runs.negated ⟨by simp, by simp⟩ ((runs_paren he).close (runs_negation .neg e))
  · rename_i hnumber
    obtain ⟨k, ks, hks, hwordy⟩ := negated_begins h (by simpa using hnumber)
    have hoperand : Runs m floor stop (Expr.enclosedKinds e.precedence Precedence.atom false e.kinds)
        (Follows Precedence.neg) .operand (.unary .neg :: stack) (.operator (e.mapPaths (Path.reread m)))
        (.unary .neg :: stack) := by
      refine runs_enclosed he (fun hbare => ?_) fun hbare k hk => ?_
      · exact fits_neg (by simpa using hbare)
      · exact hk.of_le (Nat.le_trans (by decide) (by simpa using hbare : Precedence.atom ≤ e.precedence))
    have hboth := hoperand.close (runs_negation .neg e)
    rw [hks] at hboth ⊢
    exact Runs.negated hwordy hboth

private theorem runsOperand_isIn {es : List Expr} (n : Bool) (hne : es ≠ []) (he : RunsOperand m floor stop e)
    (hes : ∀ x ∈ es, RunsOperand m floor stop x) : RunsOperand m floor stop (.isIn e es n) := by
  intro stack hfit
  rw [Expr.kinds, Expr.mapPaths, Expr.mapPathsAll_eq_map]
  refine (runs_left he (by decide) hfit fun _ hk => hk).append ?_ fun k _ => head_negation _ k (.inl rfl)
  rw [List.append_cons]
  refine (runs_in n hfit).seq ?_
  refine .cons .operand (.item (e.mapPaths (Path.reread m)) n [] :: stack) (fun t ht => ?_) ?_
  · simp only [step, ht, if_true]
  · exact runs_items (.item (e.mapPaths (Path.reread m)) n) (fun es => .isIn (e.mapPaths (Path.reread m)) es n)
      (fun _ => rfl) (fun x before => (step_item x _ n before).1) (fun x before => (step_item x _ n before).2) hne hes []

private theorem runsOperand_between (n : Bool) (he : RunsOperand m floor stop e) (hl : RunsOperand m floor stop l)
    (hr : RunsOperand m floor stop r) : RunsOperand m floor stop (.between e l r n) := by
  intro stack hfit
  rw [Expr.kinds]
  refine (runs_left he (by decide) hfit fun _ hk => hk).append ?_ fun k _ => head_negation _ k (.inr rfl)
  rw [List.append_cons]
  refine (runs_between n hfit).seq ?_
  -- The lower bound ends at the AND of the test, which binds less than any operator the bound has outside parentheses.
  have hlow : Runs m floor stop (Expr.enclosedKinds l.precedence Precedence.compare true l.kinds)
      (· = .keyword .and) .operand (.low (e.mapPaths (Path.reread m)) n :: stack)
      (.operator (l.mapPaths (Path.reread m))) (.low (e.mapPaths (Path.reread m)) n :: stack) := by
    refine runs_right hl _ (by decide) rfl fun hlt k hk => ?_
    subst hk
    exact .operator (p := Precedence.and) (by decide) (by decide) rfl (by decide)
      (Nat.le_trans (by decide) (Nat.le_of_lt hlt))
  refine hlow.append ?_ fun _ _ => rfl
  refine .cons .operand (.high (e.mapPaths (Path.reread m)) n (l.mapPaths (Path.reread m)) :: stack) (fun t ht => ?_) ?_
  · simp only [step]
    rw [settle, ht]
    rfl
  refine (runs_right hr (.high (e.mapPaths (Path.reread m)) n (l.mapPaths (Path.reread m)) :: stack)
    (by decide) rfl fun hlt k hk => ?_).close ?_
  · exact hk.of_le (Nat.le_of_lt hlt)
  · exact runs_close_high fun k hk => binds_eq_false hk (Nat.le_refl _)

private theorem runsOperand_call (f : String) {es : List Expr} (distinct : Bool) (hwell : ∀ x ∈ es, x.WellFormed)
    (hes : ∀ x ∈ es, RunsOperand m floor stop x) : RunsOperand m floor stop (.call f es distinct) := by
  intro stack _
  rw [Expr.kinds, Expr.mapPaths, Expr.mapPathsAll_eq_map]
  refine .cons (.path [f]) stack (fun t ht => ?_) ?_
  · simp only [step, beginOperand, ht]
  refine .cons (.arguments f) stack (fun t ht => ?_) ?_
  · simp only [step, ht]
  cases distinct with
  | false =>
    rw [if_neg (by decide), List.nil_append]
    exact runs_arguments hwell hes fun t ht => by simp only [step, if_neg ht]
  | true =>
    rw [if_pos rfl, List.append_assoc]
    refine .cons (.firstArgument f true) stack (fun t ht => ?_) ?_
    · simp only [step, ht, if_true]
    · exact runs_arguments hwell hes fun t _ => by simp only [step]

theorem runs_operand {e : Expr} (h : e.WellFormed) : RunsOperand m floor stop e := by
  induction e using Expr.recurse with
  | literal l => exact fun stack _ => runs_literal l
  | field p =>
    intro stack _
    exact (runs_path h.1).mono fun k hk => ⟨hk.1, hk.2.1⟩
  | param p => exact fun stack _ => runs_param p
  | wildcard => exact fun stack _ => .single fun t ht => by simp only [step, beginOperand, ht]; rfl
  | binary l op r hl hr => exact runsOperand_binary op (hl h.1) (hr h.2)
  | unary op e he =>
    cases op with
    | not => exact runsOperand_not (he h)
    | neg => exact runsOperand_neg h (he h)
  | isNull e n he =>
    intro stack hfit
    rw [Expr.kinds]
    refine (runs_left (he h) (by decide) hfit fun _ hk => hk).append (runs_isNull n hfit) fun _ _ => ?_
    exact ⟨by simp, by simp, rfl⟩
  | isIn e es n he hes =>
    have hwell := Expr.allWellFormed_iff.1 h.2.2
    exact runsOperand_isIn n h.2.1 (he h.1) fun x hx => hes x hx (hwell x hx)
  | between e l u n he hl hu => exact runsOperand_between n (he h.1) (hl h.2.1) (hu h.2.2)
  | call f es distinct hes =>
    have hwell := Expr.allWellFormed_iff.1 h.2
    exact runsOperand_call f distinct hwell fun x hx => hes x hx (hwell x hx)

end Clausal.Parse
