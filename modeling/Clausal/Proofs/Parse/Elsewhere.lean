import Clausal.Proofs.Parse.Compare
import Clausal.Proofs.Parse.GivenExpr

/-!
# Expressions that are read elsewhere

Where tokens stand in a text and which aliases are bound decides nothing about how an expression is read. From tokens
of the same kinds the same expression is read, or reading fails for the same reason; only its paths are those that
the bound aliases make of their segments. The modes and the stacks of the two runs differ in their paths at every step.
-/

namespace Clausal.Parse

open Token (Kind)

variable (f : Path → Path)

def Frame.mapPaths : Frame → Frame
  | group => group
  | unary op => unary op
  | binary l op => binary (l.mapPaths f) op
  | item e n before => item (e.mapPaths f) n (before.map (Expr.mapPaths f))
  | low e n => low (e.mapPaths f) n
  | high e n l => high (e.mapPaths f) n (l.mapPaths f)
  | argument g d before => argument g d (before.map (Expr.mapPaths f))

def Mode.mapPaths : Mode → Mode
  | operator e => operator (e.mapPaths f)
  | nullTest e n => nullTest (e.mapPaths f) n
  | negatedTest e => negatedTest (e.mapPaths f)
  | list e n => list (e.mapPaths f) n
  | mode => mode

def Step.mapPaths : Step → Step
  | shift mode stack => shift (mode.mapPaths f) (stack.map (Frame.mapPaths f))
  | done e => done (e.mapPaths f)

/-- Failures that have one reason, at whatever places. -/
def Failure.SameFault (e e' : Failure) : Prop := e.fault = e'.fault

/-- Both steps fail for the same reason, or the second leads to what the first one leads to, with other paths. -/
abbrev Tracks : Except Failure Step → Except Failure Step → Prop :=
  Matched Failure.SameFault fun s s' => s' = s.mapPaths f

variable {f}

@[simp] theorem Frame.power_mapPaths (frame : Frame) : (frame.mapPaths f).power = frame.power := by
  cases frame <;> rfl

theorem openOperator_mapPaths (e : Expr) (stack : List Frame) (k : Kind) :
    openOperator (e.mapPaths f) (stack.map (Frame.mapPaths f)) k = (openOperator e stack k).mapPaths f := by
  unfold openOperator
  cases binaryOp? k with
  | some op => rfl
  | none =>
    cases k with
    | keyword w => cases w <;> rfl
    | _ => rfl

private theorem items_mapPaths (e : Expr) (before : List Expr) :
    (e.mapPaths f :: before.map (Expr.mapPaths f)).reverse = Expr.mapPathsAll f (e :: before).reverse := by
  rw [Expr.mapPathsAll_eq_map, List.map_reverse, List.map_cons]

variable {floor : Nat} {t t' : Token}

private theorem readInteger_tracks (negative : Bool) (n : UInt64) (span span' : Span) (stack : List Frame) :
    Tracks f (readInteger negative n span stack) (readInteger negative n span' (stack.map (Frame.mapPaths f))) := by
  unfold readInteger
  cases hn : integer? negative n with
  | some e =>
    obtain ⟨l, rfl⟩ := literal_of_integer? hn
    exact .given rfl
  | none => exact .failed rfl

variable (hkind : t.kind = t'.kind)

include hkind

theorem settle_tracks (e : Expr) (stack : List Frame) :
    Tracks f (settle floor t e stack) (settle floor t' (e.mapPaths f) (stack.map (Frame.mapPaths f))) := by
  induction stack generalizing e with
  | nil =>
    rw [List.map_nil, settle, settle, hkind]
    split
    · exact .given (openOperator_mapPaths e [] t'.kind)
    · exact .given rfl
  | cons frame stack ih =>
    rw [List.map_cons]
    unfold settle
    rw [Frame.power_mapPaths, hkind]
    split
    · exact .given (openOperator_mapPaths e (frame :: stack) t'.kind)
    cases frame with
    | unary op => exact ih (.unary op e)
    | binary l op => exact ih (.binary l op e)
    | high x n l => exact ih (.between x l e n)
    | low x n =>
      dsimp only [Frame.mapPaths]
      split
      · exact .given rfl
      · exact .failed rfl
    | group =>
      dsimp only [Frame.mapPaths]
      split
      · exact .given rfl
      · exact .failed rfl
    | item x n before =>
      dsimp only [Frame.mapPaths]
      split
      · exact .given rfl
      split
      · rw [items_mapPaths]
        exact .given rfl
      · exact .failed rfl
    | argument g d before =>
      dsimp only [Frame.mapPaths]
      split
      · exact .given rfl
      split
      · rw [items_mapPaths]
        exact .given rfl
      · exact .failed rfl

theorem beginOperand_tracks (stack : List Frame) :
    Tracks f (beginOperand stack t) (beginOperand (stack.map (Frame.mapPaths f)) t') := by
  obtain ⟨k, span⟩ := t
  obtain ⟨k', span'⟩ := t'
  obtain rfl : k = k' := hkind
  cases k with
  | integer i =>
    rw [beginOperand_integer rfl, beginOperand_integer rfl]
    exact readInteger_tracks false i span span' stack
  | keyword w => cases w <;> first | exact .given rfl | exact .failed rfl
  | symbol s => cases s <;> first | exact .given rfl | exact .failed rfl
  | float x | string x | blob x | identifier x | positional x | named x => exact .given rfl
  | malformed _ | eof => exact .failed rfl

theorem beginArgument_tracks (g : String) (d : Bool) (stack : List Frame) :
    Tracks f (beginArgument g d stack t) (beginArgument g d (stack.map (Frame.mapPaths f)) t') := by
  unfold beginArgument
  rw [hkind]
  split
  · exact .given rfl
  · exact beginOperand_tracks hkind (.argument g d [] :: stack)

section Step

variable {m n : Aliases} (hf : ∀ segments, Path.resolve n ⟨none, segments⟩ = f (Path.resolve m ⟨none, segments⟩))

include hf

/-- A step with other aliases, or at another place, leads to the same but for the paths. -/
theorem step_tracks (mode : Mode) (stack : List Frame) :
    Tracks f (step m floor mode stack t) (step n floor (mode.mapPaths f) (stack.map (Frame.mapPaths f)) t') := by
  cases mode with
  | operand => exact beginOperand_tracks hkind stack
  | negated =>
    have hoperand := beginOperand_tracks hkind (f := f) (.unary .neg :: stack)
    obtain ⟨k, span⟩ := t
    obtain ⟨k', span'⟩ := t'
    obtain rfl : k = k' := hkind
    cases k with
    | integer i =>
      have hmode : Mode.negated.mapPaths f = .negated := rfl
      rw [hmode, step_negated_integer rfl, step_negated_integer rfl]
      exact readInteger_tracks true i span span' stack
    | float x => exact .given rfl
    | _ => exact hoperand
  | path segments =>
    have hsettle : Tracks f (settle floor t _ stack) (settle floor t' _ _) :=
      settle_tracks hkind (.field (Path.resolve m ⟨none, segments⟩)) stack
    rw [Expr.mapPaths, ← hf] at hsettle
    unfold step
    dsimp only [Mode.mapPaths]
    rw [hkind]
    split
    · exact .given rfl
    · exact .given rfl
    · exact hsettle
  | segment before =>
    unfold step
    dsimp only [Mode.mapPaths]
    rw [hkind]
    split
    · exact .given rfl
    · exact .failed rfl
  | arguments g =>
    unfold step
    dsimp only [Mode.mapPaths]
    rw [hkind]
    split
    · exact .given rfl
    · exact beginArgument_tracks hkind g false stack
  | firstArgument g d => exact beginArgument_tracks hkind g d stack
  | operator e => exact settle_tracks hkind e stack
  | nullTest e negated =>
    unfold step
    dsimp only [Mode.mapPaths]
    rw [hkind]
    split
    · exact .given rfl
    split
    · exact .given rfl
    · exact .failed rfl
  | negatedTest e =>
    unfold step
    dsimp only [Mode.mapPaths]
    rw [hkind]
    split
    · exact .given rfl
    · exact .given rfl
    · exact .given rfl
    · exact .failed rfl
  | list e negated =>
    unfold step
    dsimp only [Mode.mapPaths]
    rw [hkind]
    split
    · exact .given rfl
    · exact .failed rfl

end Step

omit hkind

/-! ### Whole expressions -/

/-- What is left of two texts corresponds: nothing of either, or a token of one kind of each and then what corresponds
again. -/
structure Parallel (L : List Token → List Token → Prop) : Prop where
  nil : ∀ {us : List Token}, L [] us → us = []
  cons : ∀ {t : Token} {ts us : List Token}, L (t :: ts) us →
    ∃ u us', us = u :: us' ∧ t.kind = u.kind ∧ L ts us'

theorem Parallel.length_eq {L : List Token → List Token → Prop} (hL : Parallel L) {ts us : List Token} (h : L ts us) :
    ts.length = us.length := by
  induction ts generalizing us with
  | nil => rw [hL.nil h]
  | cons t ts ih =>
    obtain ⟨u, us', rfl, -, hrest⟩ := hL.cons h
    rw [List.length_cons, List.length_cons, ih hrest]

/-- Cursors at what corresponds, where related aliases are bound. -/
def elsewhere {L : List Token → List Token → Prop} (hL : Parallel L) (bound : Aliases → Aliases → Prop)
    (stop stop' : Nat) : Comparison where
  cursor c d := L c.tokens d.tokens ∧ bound c.aliases d.aliases ∧ c.stop = stop ∧ d.stop = stop'
  failure := Failure.SameFault
  kind_eq := by
    rintro ⟨ts, _, _⟩ ⟨us, _, _⟩ ⟨h, -⟩
    cases ts with
    | nil =>
      obtain rfl := hL.nil h
      rfl
    | cons t ts =>
      obtain ⟨u, us', rfl, hkind, -⟩ := hL.cons h
      exact hkind
  length_eq h := hL.length_eq h.1
  next := by
    rintro ⟨ts, _, _⟩ ⟨us, _, _⟩ ⟨h, hrest⟩
    refine ⟨?_, hrest⟩
    cases ts with
    | nil =>
      obtain rfl := hL.nil h
      exact h
    | cons t ts =>
      obtain ⟨u, us', rfl, -, htail⟩ := hL.cons h
      exact htail
  unexpected := by
    rintro ⟨ts, _, _⟩ ⟨us, _, _⟩ e ⟨h, -⟩
    cases ts with
    | nil =>
      obtain rfl := hL.nil h
      rfl
    | cons t ts =>
      obtain ⟨u, us', rfl, hkind, -⟩ := hL.cons h
      exact congrArg (Fault.unexpected e) hkind

section Run

variable {L : List Token → List Token → Prop} (hL : Parallel L) {stop stop' : Nat}

include hL

/-- Two runs end together, with the same expression but for its paths. -/
theorem run_matched {m n : Aliases}
    (hf : ∀ segments, Path.resolve n ⟨none, segments⟩ = f (Path.resolve m ⟨none, segments⟩)) {ts us : List Token}
    (h : L ts us) (mode : Mode) (stack : List Frame) :
    Matched Failure.SameFault (fun x y => y.1 = x.1.mapPaths f ∧ L x.2 y.2) (run m floor stop ts mode stack)
      (run n floor stop' us (mode.mapPaths f) (stack.map (Frame.mapPaths f))) := by
  -- The modes and the stacks stay related, so each step of the one run is a step of the other.
  induction ts generalizing us mode stack with
  | nil =>
    obtain rfl := hL.nil h
    have hend : (Token.mk .eof ⟨stop, stop⟩).kind = (Token.mk .eof ⟨stop', stop'⟩).kind := rfl
    have hstep : Tracks f (step m floor mode stack _) (step n floor _ _ _) := step_tracks hend hf mode stack
    rw [run, run]
    generalize step m floor mode stack _ = left at hstep ⊢
    generalize step n floor (mode.mapPaths f) _ _ = right at hstep ⊢
    cases hstep with
    | failed hfault => exact .failed hfault
    | @given s s' hs =>
      subst hs
      cases s with
      | done e => exact .given ⟨rfl, h⟩
      | shift mode stack => exact .failed rfl
  | cons t ts ih =>
    obtain ⟨u, us', rfl, hkind, hrest⟩ := hL.cons h
    have hstep : Tracks f (step m floor mode stack t) (step n floor _ _ u) := step_tracks hkind hf mode stack
    rw [run, run]
    generalize step m floor mode stack t = left at hstep ⊢
    generalize step n floor (mode.mapPaths f) _ u = right at hstep ⊢
    cases hstep with
    | failed hfault => exact .failed hfault
    | @given s s' hs =>
      subst hs
      cases s with
      | done e => exact .given ⟨rfl, h⟩
      | shift mode stack => exact ih hrest mode stack

theorem Compared.expressionAbove {bound : Aliases → Aliases → Prop}
    (hf : ∀ m n, bound m n → ∀ segments, Path.resolve n ⟨none, segments⟩ = f (Path.resolve m ⟨none, segments⟩))
    (floor : Nat) : Compared (elsewhere hL bound stop stop') (fun e e' => e' = e.mapPaths f)
      (Parse.expressionAbove floor) (Parse.expressionAbove floor) := by
  rintro c d ⟨htokens, hbound, hstop, hstop'⟩
  have hrun : Matched _ _ (run c.aliases floor c.stop c.tokens .operand [])
      (run d.aliases floor d.stop d.tokens .operand []) :=
    run_matched hL (hf _ _ hbound) htokens .operand []
  show Matched _ _ (Parse.expressionAbove floor c) (Parse.expressionAbove floor d)
  unfold Parse.expressionAbove
  generalize run c.aliases floor c.stop c.tokens .operand [] = left at hrun ⊢
  generalize run d.aliases floor d.stop d.tokens .operand [] = right at hrun ⊢
  cases hrun with
  | failed hfault => exact .failed hfault
  | given h => exact .given ⟨h.1, h.2, hbound, hstop, hstop'⟩

end Run

end Clausal.Parse
