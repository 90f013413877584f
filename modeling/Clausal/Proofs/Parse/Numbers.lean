import Mathlib.Algebra.Group.Nat.Defs
import Clausal.Proofs.Expr.Numbers
import Clausal.Proofs.Parse.Whole

/-!
# Numbers that are written

Where a number stands decides what it is and how large it may be, and the tokens in front of it tell where it stands.
An expression that is read has the numbers that its tokens write at their places, in their order, and none of them is
out of bounds there. The modes tell the places apart: every step keeps what has been read and adds the number of its
token.
-/

namespace Clausal.Parse

open Token (Kind)

/-! ### Places of numbers -/

/-- What the tokens in front of a place tell about it. -/
inductive Position where
  /-- An operand may begin, or none may stand. -/
  | operand
  /-- An operand may begin after a minus sign in front of it. -/
  | negated
  /-- An operand or a name has ended. -/
  | ended
  /-- A name has ended that follows another one, as that of a type follows that of a column. -/
  | typed
  /-- The arguments of a type are given. -/
  | argument
  /-- A word has been passed that a count follows. -/
  | count
  deriving DecidableEq, Repr

namespace Position

/-- The place behind a token. -/
def next (p : Position) : Kind → Position
  | .identifier _ => match p with
    | ended | typed => typed
    | _ => ended
  | .integer _ => match p with
    | argument => argument
    | _ => ended
  | .float _ | .string _ | .blob _ | .positional _ | .named _ => ended
  | .keyword .true | .keyword .false | .keyword .null => ended
  | .keyword .limit | .keyword .offset => count
  | .symbol .rightParen => ended
  | .symbol .leftParen => match p with
    | typed => argument
    | _ => operand
  | .symbol .comma => match p with
    | argument => argument
    | _ => operand
  | .symbol .star => match p with
    | ended | typed => operand
    | _ => ended
  | .symbol .minus => match p with
    | ended | typed => operand
    | _ => negated
  | _ => operand

/-- The number that decimal digits write at a place, if one may stand there that is as large. -/
def number? (p : Position) (n : Nat) : Option Number :=
  match p with
  | operand => if n < 2 ^ 63 then some (.literal n) else none
  | negated => if n ≤ 2 ^ 63 then some (.literal (-n)) else none
  | count => if n < 2 ^ 64 then some (.count n) else none
  | argument => if n < 2 ^ 32 then some (.argument n) else none
  | ended | typed => none

/-- The numbers that a token writes at a place, if it may stand there. -/
def numbers? (p : Position) : Kind → Option (List Number)
  | .integer n => (p.number? n.toNat).map fun x => [x]
  | .positional n => some [.index n.toNat]
  | .malformed _ => none
  | _ => some []

def after (p : Position) (ts : List Token) : Position := ts.foldl (fun p t => p.next t.kind) p

/-- The numbers that tokens write from a place on, if all of them may stand where they do. -/
def written? (p : Position) : List Token → Option (List Number)
  | [] => some []
  | t :: ts =>
    match p.numbers? t.kind, (p.next t.kind).written? ts with
    | some ns, some more => some (ns ++ more)
    | _, _ => none

variable {p : Position} {ts us : List Token} {ns more : List Number}

theorem written?_cons {t : Token} (ht : p.numbers? t.kind = some ns)
    (hts : (p.next t.kind).written? ts = some more) : p.written? (t :: ts) = some (ns ++ more) := by
  rw [written?, ht, hts]

theorem written?_append (hts : p.written? ts = some ns) (hus : (p.after ts).written? us = some more) :
    p.written? (ts ++ us) = some (ns ++ more) := by
  induction ts generalizing p ns with
  | nil =>
    cases hts
    exact hus
  | cons t ts ih =>
    rw [written?] at hts
    split at hts
    · rename_i here rest hhere hrest
      cases hts
      rw [List.append_assoc]
      exact written?_cons hhere (ih hrest hus)
    · cases hts

end Position

/-! ### Numbers that have been read -/

def Frame.numbers : Frame → List Number
  | group | unary _ => []
  | binary e _ | low e _ => e.numbers
  | item e _ before => e.numbers ++ before.reverse.flatMap Expr.numbers
  | high e _ l => e.numbers ++ l.numbers
  | argument _ _ before => before.reverse.flatMap Expr.numbers

/-- The numbers on a stack, from its bottom to its top. -/
def stackNumbers : List Frame → List Number
  | [] => []
  | f :: fs => stackNumbers fs ++ f.numbers

namespace Mode

def numbers : Mode → List Number
  | operator e | nullTest e _ | negatedTest e | list e _ => e.numbers
  | _ => []

def position : Mode → Position
  | negated => .negated
  | path _ | operator _ => .ended
  | _ => .operand

end Mode

/-- A step from a place adds the numbers of its token to those that have been read and leads to the place behind it,
or it ends where an operand has ended, with what has been read. -/
def Step.Adds (p : Position) (k : Kind) (read : List Number) : Step → Prop
  | shift mode stack =>
    mode.position = p.next k ∧ ∃ ns, p.numbers? k = some ns ∧ stackNumbers stack ++ mode.numbers = read ++ ns
  | done e => p = .ended ∧ e.numbers = read

/-- A step of a token that writes no number. -/
private theorem adds_shift {p : Position} {k : Kind} {read : List Number} {mode : Mode} {stack : List Frame}
    (hposition : mode.position = p.next k) (hnone : p.numbers? k = some [])
    (hread : stackNumbers stack ++ mode.numbers = read) : Step.Adds p k read (.shift mode stack) :=
  ⟨hposition, [], hnone, hread.trans (List.append_nil read).symm⟩

variable {floor : Nat} {t : Token} {stack : List Frame} {s : Step}

/-- A step that depends on whether the token is of one kind. -/
private theorem adds_ite {p : Position} {k : Kind} {read : List Number} {yes : Step} {no : Except Failure Step}
    (h : (if t.kind = k then .ok yes else no) = .ok s) (hyes : yes.Adds p k read)
    (hno : no = .ok s → s.Adds p t.kind read) : s.Adds p t.kind read := by
  split at h
  · rename_i hkind
    cases h
    rwa [hkind]
  · exact hno h

private theorem binaryOp?_position {k : Kind} {op : BinaryOp} (h : binaryOp? k = some op) :
    Position.ended.next k = .operand ∧ Position.ended.numbers? k = some [] := by
  unfold binaryOp? at h
  split at h <;> first | exact ⟨rfl, rfl⟩ | cases h

private theorem openOperator_adds {power : Nat} {k : Kind} (h : binds power k = true) (e : Expr) (stack : List Frame) :
    (openOperator e stack k).Adds .ended k (stackNumbers stack ++ e.numbers) := by
  unfold openOperator
  split
  · rename_i op hop
    obtain ⟨hposition, hnone⟩ := binaryOp?_position hop
    exact adds_shift hposition.symm hnone (List.append_nil _)
  rename_i hop
  split
  · exact adds_shift rfl rfl rfl
  · exact adds_shift rfl rfl rfl
  · exact adds_shift rfl rfl rfl
  · exact adds_shift rfl rfl (List.append_nil _)
  · -- Nothing else binds.
    unfold binds leftPower? at h
    rw [hop] at h
    split at h
    · rename_i l hl
      dsimp only at hl
      split at hl <;> contradiction
    · cases h

private theorem numbers_items (e : Expr) (before : List Expr) :
    (e :: before).reverse.flatMap Expr.numbers = before.reverse.flatMap Expr.numbers ++ e.numbers := by
  rw [List.reverse_cons, List.flatMap_append, List.flatMap_singleton]

private theorem settle_adds {e : Expr} (h : settle floor t e stack = .ok s) :
    s.Adds .ended t.kind (stackNumbers stack ++ e.numbers) := by
  -- A construct that is closed keeps its numbers, so only the innermost one that stays open matters.
  induction stack generalizing e with
  | nil =>
    rw [settle] at h
    cases h
    split
    · rename_i hbinds
      exact openOperator_adds hbinds e []
    · exact ⟨rfl, rfl⟩
  | cons f stack ih =>
    unfold settle at h
    split at h
    · rename_i hbinds
      cases h
      exact openOperator_adds hbinds e (f :: stack)
    rw [stackNumbers, List.append_assoc]
    cases f with
    | unary op => exact ih (e := .unary op e) h
    | binary l op => exact ih (e := .binary l op e) h
    | high x n l => exact ih (e := .between x l e n) h
    | low x n => exact adds_ite h (adds_shift rfl rfl (List.append_nil _)) fun h => by cases h
    | group => exact adds_ite h (adds_shift rfl rfl rfl) fun h => by cases h
    | item x n before =>
      have hitems : x.numbers ++ (e :: before).reverse.flatMap Expr.numbers =
          (Frame.item x n before).numbers ++ e.numbers := by
        rw [numbers_items, Frame.numbers, List.append_assoc]
      rw [← hitems]
      refine adds_ite h (adds_shift rfl rfl (List.append_nil _)) fun h => adds_ite h ?_ fun h => by cases h
      rw [← Expr.numbersAll_eq_flatMap]
      exact adds_shift rfl rfl rfl
    | argument g d before =>
      have hitems : (e :: before).reverse.flatMap Expr.numbers =
          (Frame.argument g d before).numbers ++ e.numbers := numbers_items e before
      rw [← hitems]
      refine adds_ite h (adds_shift rfl rfl (List.append_nil _)) fun h => adds_ite h ?_ fun h => by cases h
      rw [← Expr.numbersAll_eq_flatMap]
      exact adds_shift rfl rfl rfl

/-! ### Whole numbers -/

/-- The place in front of a whole number, which may have a minus sign in front of it. -/
def Position.ofSign (negative : Bool) : Position := if negative then .negated else .operand

/-- Sixty-four bits hold a whole number if it is in bounds at its place, and then it is kept as it is. -/
theorem integer?_eq_some_iff {negative : Bool} {n : UInt64} {e : Expr} :
    integer? negative n = some e ↔
      ∃ i : Int64, (Position.ofSign negative).number? n.toNat = some (.literal i.toInt) ∧ e = .literal (.integer i) := by
  simp only [integer?, Option.ite_none_right_eq_some, Option.some.injEq]
  have hback (i : Int64) : Int64.ofInt i.toInt = i := i.ofInt_toInt
  cases negative with
  | true =>
    simp only [Position.ofSign, Position.number?, if_true, Option.ite_none_right_eq_some, Option.some.injEq,
      Number.literal.injEq]
    constructor
    · rintro ⟨⟨hlow, hhigh⟩, rfl⟩
      exact ⟨_, ⟨by omega, (Int64.toInt_ofInt_of_le hlow hhigh).symm⟩, rfl⟩
    · rintro ⟨i, ⟨hbound, hi⟩, rfl⟩
      exact ⟨by omega, by rw [hi, hback]⟩
  | false =>
    simp only [Position.ofSign, Position.number?, Bool.false_eq_true, if_false, Option.ite_none_right_eq_some,
      Option.some.injEq, Number.literal.injEq]
    constructor
    · rintro ⟨⟨hlow, hhigh⟩, rfl⟩
      exact ⟨_, ⟨by omega, (Int64.toInt_ofInt_of_le hlow hhigh).symm⟩, rfl⟩
    · rintro ⟨i, ⟨hbound, hi⟩, rfl⟩
      exact ⟨by omega, by rw [hi, hback]⟩

private theorem readInteger_adds {negative : Bool} {n : UInt64}
    (h : readInteger negative n t.span stack = .ok s) (ht : t.kind = .integer n) :
    s.Adds (Position.ofSign negative) t.kind (stackNumbers stack) := by
  obtain ⟨e, he, rfl⟩ := readInteger_eq_ok.1 h
  obtain ⟨i, hbound, rfl⟩ := integer?_eq_some_iff.1 he
  rw [ht]
  refine ⟨by cases negative <;> rfl, [.literal i.toInt], ?_, rfl⟩
  rw [Position.numbers?, hbound]
  rfl

/-! ### Steps -/

private theorem beginOther_adds {p : Position} (hp : p = .operand ∨ p = .negated) (ht : ∀ n, t.kind ≠ .integer n)
    (h : beginOperand stack t = .ok s) : s.Adds p t.kind (stackNumbers stack) := by
  have hstack : stackNumbers stack ++ [] = stackNumbers stack := List.append_nil _
  cases hk : t.kind with
  | integer n => exact absurd hk (ht n)
  | identifier name | float x | string x | blob x | named x =>
    rw [beginOperand, hk] at h
    cases h
    rcases hp with rfl | rfl <;> exact adds_shift rfl rfl hstack
  | positional n =>
    rw [beginOperand, hk] at h
    cases h
    exact ⟨by rcases hp with rfl | rfl <;> rfl, _, rfl, rfl⟩
  | keyword k =>
    rw [beginOperand, hk] at h
    cases k with
    | not =>
      cases h
      rcases hp with rfl | rfl <;> exact adds_shift rfl rfl ((List.append_nil _).trans hstack)
    | true | false | null =>
      cases h
      rcases hp with rfl | rfl <;> exact adds_shift rfl rfl hstack
    | _ => cases h
  | symbol y =>
    rw [beginOperand, hk] at h
    cases y with
    | minus | star =>
      cases h
      rcases hp with rfl | rfl <;> exact adds_shift rfl rfl hstack
    | leftParen =>
      cases h
      rcases hp with rfl | rfl <;> exact adds_shift rfl rfl ((List.append_nil _).trans hstack)
    | _ => cases h
  | _ =>
    rw [beginOperand, hk] at h
    cases h

private theorem beginOperand_adds (h : beginOperand stack t = .ok s) :
    s.Adds .operand t.kind (stackNumbers stack) := by
  by_cases ht : ∃ n, t.kind = .integer n
  · obtain ⟨n, hn⟩ := ht
    rw [beginOperand_integer hn] at h
    exact readInteger_adds h hn
  · exact beginOther_adds (.inl rfl) (fun n hn => ht ⟨n, hn⟩) h

private theorem beginNegated_adds {m : Aliases} (h : step m floor .negated stack t = .ok s) :
    s.Adds .negated t.kind (stackNumbers stack) := by
  by_cases ht : ∃ n, t.kind = .integer n
  · obtain ⟨n, hn⟩ := ht
    rw [step_negated_integer hn] at h
    exact readInteger_adds h hn
  · have hother : ∀ n, t.kind ≠ .integer n := fun n hn => ht ⟨n, hn⟩
    have hstack : stackNumbers (.unary .neg :: stack) = stackNumbers stack := List.append_nil _
    unfold step at h
    dsimp only at h
    split at h
    · rename_i n hn
      exact absurd hn (hother n)
    · rename_i x hx
      cases h
      rw [hx]
      exact adds_shift rfl rfl (List.append_nil _)
    · rw [← hstack]
      exact beginOther_adds (.inr rfl) hother h

private theorem beginArgument_adds {f : String} {distinct : Bool} (h : beginArgument f distinct stack t = .ok s) :
    s.Adds .operand t.kind (stackNumbers stack) := by
  unfold beginArgument at h
  refine adds_ite h (adds_shift rfl rfl (List.append_nil _)) fun h => ?_
  have hadds := beginOperand_adds h
  rwa [stackNumbers, Frame.numbers, List.reverse_nil, List.flatMap_nil, List.append_nil] at hadds

/-- A step adds the number of its token, if it writes one, to those that have been read. -/
theorem step_adds {m : Aliases} {mode : Mode} (h : step m floor mode stack t = .ok s) :
    s.Adds mode.position t.kind (stackNumbers stack ++ mode.numbers) := by
  have hstack : stackNumbers stack ++ [] = stackNumbers stack := List.append_nil _
  cases mode with
  | negated => exact hstack.symm ▸ beginNegated_adds h
  | operand => exact hstack.symm ▸ beginOperand_adds h
  | path segments =>
    unfold step at h
    dsimp only at h
    split at h
    · rename_i hkind
      cases h
      rw [hkind]
      exact adds_shift rfl rfl rfl
    · rename_i hkind
      cases h
      rw [hkind]
      exact adds_shift rfl rfl rfl
    · exact settle_adds h
  | segment before =>
    unfold step at h
    dsimp only at h
    split at h
    · rename_i hkind
      cases h
      rw [hkind]
      exact adds_shift rfl rfl rfl
    · cases h
  | arguments f => exact adds_ite h (adds_shift rfl rfl rfl) fun h => hstack.symm ▸ beginArgument_adds h
  | firstArgument f distinct => exact hstack.symm ▸ beginArgument_adds h
  | operator e => exact settle_adds h
  | nullTest e negated =>
    refine adds_ite h (adds_shift rfl rfl rfl) fun h => ?_
    split at h
    · rename_i hkind
      cases h
      rw [hkind.1]
      exact adds_shift rfl rfl rfl
    · cases h
  | negatedTest e =>
    unfold step at h
    dsimp only at h
    split at h
    · rename_i hkind
      cases h
      rw [hkind]
      exact adds_shift rfl rfl (List.append_nil _)
    · rename_i hkind
      cases h
      rw [hkind]
      exact adds_shift rfl rfl rfl
    · rename_i hkind
      cases h
      rw [hkind]
      exact adds_shift rfl rfl (List.append_nil _)
    · cases h
  | list e negated =>
    refine adds_ite h (adds_shift rfl rfl ((List.append_nil _).trans ?_)) fun h => by cases h
    show stackNumbers stack ++ (e.numbers ++ []) = _
    rw [List.append_nil]
    rfl

/-- The expression that is read has what had been read and the numbers of the tokens that are passed. -/
theorem run_adds {m : Aliases} {stop : Nat} {ts rest : List Token} {mode : Mode} {stack : List Frame} {e : Expr}
    (h : run m floor stop ts mode stack = .ok (e, rest)) :
    ∃ used ns, ts = used ++ rest ∧ mode.position.written? used = some ns ∧ mode.position.after used = .ended ∧
      e.numbers = stackNumbers stack ++ mode.numbers ++ ns := by
  induction ts generalizing mode stack with
  | nil =>
    rw [run] at h
    split at h
    · cases h
    · rename_i hstep
      cases h
      obtain ⟨hended, hnumbers⟩ := step_adds hstep
      exact ⟨[], [], rfl, rfl, hended, by rw [hnumbers, List.append_nil]⟩
    · cases h
  | cons t ts ih =>
    rw [run] at h
    split at h
    · cases h
    · rename_i hstep
      cases h
      obtain ⟨hended, hnumbers⟩ := step_adds hstep
      exact ⟨[], [], rfl, rfl, hended, by rw [hnumbers, List.append_nil]⟩
    · rename_i hstep
      obtain ⟨hnext, ns, hns, hread⟩ := step_adds hstep
      obtain ⟨used, more, rfl, hmore, hended, hnumbers⟩ := ih h
      rw [hnext] at hmore hended
      refine ⟨t :: used, ns ++ more, rfl, Position.written?_cons hns hmore, hended, ?_⟩
      rw [hnumbers, hread, List.append_assoc]

end Clausal.Parse
