import Clausal.Proofs.Parse.Compare
import Clausal.Proofs.Parse.Place
import Clausal.Proofs.Statement.Aliases

/-!
# Readers that agree

Two readers agree on a text if, wherever the same is left to read of it and the same aliases are bound, both fail
alike at one place of the text or give related values and leave the same. Which entities the aliases stand for does
not matter: a reader only asks whether an alias is bound.
-/

namespace Clausal

/-- Which segments are aliases decides about a path, and nothing else of the aliases does. -/
theorem Path.resolve_congr {m n : Aliases} (h : ∀ a, m.contains a = n.contains a) : resolve m = resolve n := by
  funext p
  unfold resolve
  split
  · rw [h]
  · rfl

namespace Parse

open Token (Kind)

/-- The same is left to read, and the same aliases are bound. -/
structure Cursor.Like (c d : Cursor) : Prop where
  tokens : c.tokens = d.tokens
  stop : c.stop = d.stop
  bound : ∀ a, c.aliases.contains a = d.aliases.contains a

namespace Cursor.Like

variable {c d : Cursor} (h : c.Like d)

include h

theorem kind_eq : c.kind = d.kind := by rw [kind, kind, h.tokens]

theorem span_eq : c.span = d.span := by rw [span, span, h.tokens, h.stop]

theorem next : c.next.Like d.next := ⟨congrArg List.tail h.tokens, h.stop, h.bound⟩

end Cursor.Like

variable {α β : Type} {all : List Token}

/-- Cursors at which the same end of a text is left to read, and the same failures somewhere in the text. -/
def alike (all : List Token) : Comparison where
  cursor c d := c.Like d ∧ c.rest <:+ all
  failure f g := f = g ∧ f.StandsIn all
  kind_eq h := h.1.kind_eq
  length_eq h := congrArg List.length h.1.tokens
  next {c _} h := ⟨h.1.next, c.next_rest_suffix.trans h.2⟩
  unexpected e h := ⟨by rw [h.1.kind_eq, h.1.span_eq], (Cursor.unexpected_standsIn _ e).mono h.2⟩

/-- Wherever the same end of a text is left to read, the outcomes are alike: the same failure somewhere in the text,
or related values and the same left to read. -/
abbrev Agree (all : List Token) (R : α → β → Prop) (p : Parser α) (q : Parser β) : Prop := Compared (alike all) R p q

namespace Agree

/-- After a place has been read, the failures stand at its token or behind it. -/
theorem afterPlace {R : α → β → Prop} {f : Span → Parser α} {g : Span → Parser β}
    (h : ∀ t ts, Agree (t :: ts) R (f t.span) (g t.span)) : Agree all R (Parse.place >>= f) (Parse.place >>= g) := by
  rintro c d ⟨hlike, hsuffix⟩
  -- What is left is taken for the whole text, so that a later token is one of those behind this one.
  obtain ⟨ts, hrest⟩ := c.rest_eq_cons
  rw [hrest] at hsuffix
  have hboth := h ⟨c.kind, c.span⟩ ts c d ⟨hlike, hrest ▸ List.suffix_rfl⟩
  change Matched _ _ ((f c.span).run c) ((g d.span).run d)
  rw [← hlike.span_eq]
  generalize (f c.span).run c = left at hboth ⊢
  generalize (g c.span).run d = right at hboth ⊢
  cases hboth with
  | failed hfail => exact .failed ⟨hfail.1, hfail.2.mono hsuffix⟩
  | given hxy => exact .given ⟨hxy.1, hxy.2.1, hxy.2.2.trans hsuffix⟩

end Agree

/-! ### Expressions -/

theorem run_congr {m n : Aliases} (h : ∀ a, m.contains a = n.contains a) (floor stop : Nat) (ts : List Token)
    (mode : Mode) (stack : List Frame) : run m floor stop ts mode stack = run n floor stop ts mode stack := by
  have hstep : step m floor = step n floor := by
    funext mode stack t
    unfold step
    rw [Path.resolve_congr h]
  induction ts generalizing mode stack with
  | nil => rw [run, run, hstep]
  | cons t ts ih =>
    rw [run, run, hstep]
    split
    · rfl
    · rfl
    · exact ih _ _

theorem Agree.expressionAbove (floor : Nat) :
    Agree all Eq (Parse.expressionAbove floor) (Parse.expressionAbove floor) := by
  rintro c d ⟨hlike, hsuffix⟩
  show Matched _ _ (Parse.expressionAbove floor c) (Parse.expressionAbove floor d)
  rw [Parse.expressionAbove, Parse.expressionAbove, ← run_congr hlike.bound, ← hlike.stop, ← hlike.tokens]
  cases hrun : run c.aliases floor c.stop c.tokens .operand [] with
  | error f => exact .failed ⟨rfl, (run_eq_error hrun).mono hsuffix⟩
  | ok r =>
    obtain ⟨e, ts⟩ := r
    have hrest : Cursor.rest ⟨ts, c.stop, c.aliases⟩ <:+ c.rest := Cursor.rest_suffix (run_eq_ok hrun) rfl
    exact .given ⟨rfl, ⟨rfl, rfl, hlike.bound⟩, hrest.trans hsuffix⟩

theorem Agree.expression : Agree all Eq Parse.expression Parse.expression := expressionAbove 0

end Parse

end Clausal
