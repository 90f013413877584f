import Clausal.Parse.Expr

/-!
# Whole numbers of expressions

At a whole number the reader does what `integer?` decides. The equations here are all that is used of that: the kernel
must not look into `integer?`, as it would count up to the bounds of the numbers.
-/

namespace Clausal.Parse

/-- Goes on behind a whole number, if it fits 64 bits. -/
def readInteger (negative : Bool) (n : UInt64) (span : Span) (stack : List Frame) : Except Failure Step :=
  (integer? negative n).elim (.error ⟨.integerRange, span⟩) fun e => .ok (.shift (.operator e) stack)

variable {negative : Bool} {n : UInt64} {span : Span} {stack : List Frame}

theorem readInteger_eq_ok {s : Step} :
    readInteger negative n span stack = .ok s ↔ ∃ e, integer? negative n = some e ∧ s = .shift (.operator e) stack := by
  rw [readInteger]
  cases integer? negative n with
  | none =>
    refine iff_of_false (fun h => by cases h) ?_
    rintro ⟨e, he, -⟩
    cases he
  | some e =>
    rw [Option.elim_some, Except.ok.injEq]
    constructor
    · rintro rfl
      exact ⟨e, rfl, rfl⟩
    · rintro ⟨e, ⟨⟩, rfl⟩
      rfl

theorem readInteger_eq_error {f : Failure} :
    readInteger negative n span stack = .error f ↔ integer? negative n = none ∧ f = ⟨.integerRange, span⟩ := by
  rw [readInteger]
  cases integer? negative n with
  | none =>
    rw [Option.elim_none, Except.error.injEq, eq_self_iff_true, true_and, eq_comm]
  | some e => exact iff_of_false (fun h => by cases h) fun h => by cases h.1

section Named

variable {t : Token} (ht : t.kind = .integer n) {g : Bool → UInt64 → Option Expr} (hg : integer? = g)

include ht hg

private theorem beginOperand_named :
    beginOperand stack t = (g false n).elim (.error ⟨.integerRange, t.span⟩) fun e => .ok (.shift (.operator e) stack) := by
  unfold beginOperand
  rw [hg, ht]
  dsimp only
  cases g false n <;> rfl

private theorem step_negated_named (m : Aliases) (floor : Nat) :
    step m floor .negated stack t =
      (g true n).elim (.error ⟨.integerRange, t.span⟩) fun e => .ok (.shift (.operator e) stack) := by
  unfold step
  rw [hg, ht]
  dsimp only
  cases g true n <;> rfl

end Named

theorem beginOperand_integer {t : Token} (ht : t.kind = .integer n) :
    beginOperand stack t = readInteger false n t.span stack :=
  beginOperand_named ht rfl

theorem step_negated_integer {t : Token} (ht : t.kind = .integer n) (m : Aliases) (floor : Nat) :
    step m floor .negated stack t = readInteger true n t.span stack :=
  step_negated_named ht rfl m floor

private theorem literal_of_ite {p : Prop} [Decidable p] {l : Literal} {e : Expr}
    (h : (if p then some (Expr.literal l) else none) = some e) : ∃ l, e = .literal l := by
  split at h
  · exact ⟨l, (Option.some.inj h).symm⟩
  · cases h

theorem literal_of_integer? {e : Expr} (h : integer? negative n = some e) : ∃ l, e = .literal l := literal_of_ite h

end Clausal.Parse
