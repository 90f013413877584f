import Clausal.Parse.Fragment
import Clausal.Proofs.Parse.Whole

/-!
# Where readers fail

A reader fails at a token of the text, which is the one it found if it found one, or at the tokens from one place to
a later one. The end of the text counts as its last token. What is left to read is always an end of the text.
-/

namespace Clausal.Parse

open Token (Kind)

/-! ### Places of failures -/

/-- The failure stands at the token. What was found, if anything, is the token. -/
def Failure.StandsAt (f : Failure) (t : Token) : Prop := f.span = t.span ∧ ∀ k, f.fault.found? = some k → t.kind = k

/-- The failure stands from where one of the tokens starts to where it or a later one ends. What was found, if
anything, is the first of them. -/
def Failure.StandsIn (f : Failure) (all : List Token) : Prop :=
  ∃ t ts u, t :: ts <:+ all ∧ u ∈ t :: ts ∧ f.span = ⟨t.span.start, u.span.stop⟩ ∧
    ∀ k, f.fault.found? = some k → t.kind = k

theorem Failure.StandsAt.standsIn {f : Failure} {t : Token} {ts all : List Token} (h : f.StandsAt t)
    (hsuffix : t :: ts <:+ all) : f.StandsIn all :=
  ⟨t, ts, t, hsuffix, List.mem_cons_self, h.1, h.2⟩

theorem Failure.StandsIn.mono {f : Failure} {ts all : List Token} (h : f.StandsIn ts) (hsuffix : ts <:+ all) :
    f.StandsIn all := by
  obtain ⟨t, us, u, hts, hu, hspan, hfound⟩ := h
  exact ⟨t, us, u, hts.trans hsuffix, hu, hspan, hfound⟩

/-- The place of one of the tokens. -/
def PlaceIn (all : List Token) (s : Span) : Prop := ∃ t ∈ all, t.span = s

theorem PlaceIn.standsIn {all : List Token} {fault : Fault} {s : Span} (h : PlaceIn all s)
    (hfound : fault.found? = none) : Failure.StandsIn ⟨fault, s⟩ all := by
  obtain ⟨t, ht, rfl⟩ := h
  obtain ⟨before, after, rfl⟩ := List.append_of_mem ht
  have hat : Failure.StandsAt ⟨fault, t.span⟩ t := ⟨rfl, fun k hk => by cases hfound.symm.trans hk⟩
  exact hat.standsIn (List.suffix_append before (t :: after))

/-! ### What is left -/

/-- The tokens that are left, and the end of the text after them. -/
def Cursor.rest (c : Cursor) : List Token := c.tokens ++ [⟨.eof, ⟨c.stop, c.stop⟩⟩]

theorem Cursor.rest_eq_cons (c : Cursor) : ∃ ts, c.rest = ⟨c.kind, c.span⟩ :: ts := by
  obtain ⟨ts, stop, m⟩ := c
  cases ts with
  | nil => exact ⟨[], rfl⟩
  | cons t ts => exact ⟨ts ++ [⟨.eof, ⟨stop, stop⟩⟩], rfl⟩

theorem Cursor.rest_suffix {c d : Cursor} (h : d.tokens <:+ c.tokens) (hstop : d.stop = c.stop) : d.rest <:+ c.rest := by
  obtain ⟨before, htokens⟩ := h
  exact ⟨before, by rw [rest, rest, ← htokens, hstop, List.append_assoc]⟩

theorem Cursor.next_rest_suffix (c : Cursor) : c.next.rest <:+ c.rest := rest_suffix (List.tail_suffix c.tokens) rfl

theorem Cursor.placeIn_span (c : Cursor) : PlaceIn c.rest c.span := by
  obtain ⟨ts, hts⟩ := c.rest_eq_cons
  exact ⟨_, hts ▸ List.mem_cons_self, rfl⟩

theorem Cursor.unexpected_standsIn (c : Cursor) (expected : Expected) :
    Failure.StandsIn ⟨.unexpected expected c.kind, c.span⟩ c.rest := by
  obtain ⟨ts, hts⟩ := c.rest_eq_cons
  have hat : Failure.StandsAt ⟨.unexpected expected c.kind, c.span⟩ ⟨c.kind, c.span⟩ :=
    ⟨rfl, fun _ hk => Option.some.inj hk⟩
  rw [hts]
  exact hat.standsIn List.suffix_rfl

/-! ### Expressions -/

variable {floor : Nat} {t : Token} {f : Failure}

private theorem standsAt_unexpected (expected : Expected) : Failure.StandsAt ⟨.unexpected expected t.kind, t.span⟩ t :=
  ⟨rfl, fun _ hk => Option.some.inj hk⟩

private theorem standsAt_of_found {fault : Fault} (h : fault.found? = none) : Failure.StandsAt ⟨fault, t.span⟩ t :=
  ⟨rfl, fun _ hk => by cases h.symm.trans hk⟩

theorem settle_eq_error {e : Expr} {stack : List Frame} (h : settle floor t e stack = .error f) : f.StandsAt t := by
  induction stack generalizing e with
  | nil => cases h
  | cons frame stack ih =>
    unfold settle at h
    split at h
    · cases h
    cases frame with
    | unary op => exact ih h
    | binary l op => exact ih h
    | high x n l => exact ih h
    | low x n | group =>
      dsimp only at h
      split at h
      · cases h
      · cases h
        exact standsAt_unexpected _
    | item x n before | argument g d before =>
      dsimp only at h
      split at h
      · cases h
      split at h
      · cases h
      · cases h
        exact standsAt_unexpected _

private theorem readInteger_eq_error_at {negative : Bool} {n : UInt64} {stack : List Frame}
    (h : readInteger negative n t.span stack = .error f) : f.StandsAt t := by
  obtain ⟨-, rfl⟩ := readInteger_eq_error.1 h
  exact standsAt_of_found rfl

theorem beginOperand_eq_error {stack : List Frame} (h : beginOperand stack t = .error f) : f.StandsAt t := by
  obtain ⟨k, span⟩ := t
  cases k with
  | integer i =>
    rw [beginOperand_integer rfl] at h
    exact readInteger_eq_error_at h
  | float x | string x | blob x | identifier x | positional x | named x => cases h
  | keyword w => cases w <;> cases h <;> exact standsAt_unexpected (t := ⟨.keyword _, span⟩) _
  | symbol s => cases s <;> cases h <;> exact standsAt_unexpected (t := ⟨.symbol _, span⟩) _
  | malformed fault =>
    cases h
    exact standsAt_of_found (t := ⟨.malformed fault, span⟩) rfl
  | eof =>
    cases h
    exact standsAt_unexpected (t := ⟨.eof, span⟩) _

theorem beginArgument_eq_error {g : String} {d : Bool} {stack : List Frame}
    (h : beginArgument g d stack t = .error f) : f.StandsAt t := by
  unfold beginArgument at h
  split at h
  · cases h
  · exact beginOperand_eq_error h

/-- A step fails at its token. -/
theorem step_eq_error {m : Aliases} {mode : Mode} {stack : List Frame} (h : step m floor mode stack t = .error f) :
    f.StandsAt t := by
  cases mode with
  | operand =>
    have hoperand : beginOperand stack t = .error f := h
    exact beginOperand_eq_error hoperand
  | firstArgument g d => exact beginArgument_eq_error h
  | operator e => exact settle_eq_error h
  | negated =>
    have hoperand : beginOperand (.unary .neg :: stack) t = .error f → f.StandsAt t := beginOperand_eq_error
    obtain ⟨k, span⟩ := t
    cases k with
    | integer i =>
      rw [step_negated_integer rfl] at h
      exact readInteger_eq_error_at h
    | float x => cases h
    | _ => exact hoperand h
  | path segments =>
    unfold step at h
    dsimp only at h
    split at h
    · cases h
    · cases h
    · exact settle_eq_error h
  | arguments g =>
    unfold step at h
    dsimp only at h
    split at h
    · cases h
    · exact beginArgument_eq_error h
  | segment before | list e negated =>
    unfold step at h
    dsimp only at h
    split at h
    · cases h
    · cases h
      exact standsAt_unexpected _
  | nullTest e negated =>
    unfold step at h
    dsimp only at h
    split at h
    · cases h
    split at h
    · cases h
    · cases h
      exact standsAt_unexpected _
  | negatedTest e =>
    unfold step at h
    dsimp only at h
    split at h
    · cases h
    · cases h
    · cases h
    · cases h
      exact standsAt_unexpected _

variable {m : Aliases} {stop : Nat} {mode : Mode} {stack : List Frame} {ts : List Token}

/-- A run fails at one of its tokens or at the end of the text. -/
theorem run_eq_error (h : run m floor stop ts mode stack = .error f) :
    f.StandsIn (ts ++ [⟨.eof, ⟨stop, stop⟩⟩]) := by
  induction ts generalizing mode stack with
  | nil =>
    rw [run] at h
    split at h
    · rename_i hstep
      cases h
      exact (step_eq_error hstep).standsIn List.suffix_rfl
    · cases h
    · cases h
      exact (standsAt_unexpected (t := ⟨.eof, ⟨stop, stop⟩⟩) _).standsIn List.suffix_rfl
  | cons t ts ih =>
    rw [run] at h
    split at h
    · rename_i hstep
      cases h
      exact (step_eq_error hstep).standsIn List.suffix_rfl
    · cases h
    · exact (ih h).mono (List.suffix_cons t _)

theorem run_eq_ok {e : Expr} {rest : List Token} (h : run m floor stop ts mode stack = .ok (e, rest)) :
    rest <:+ ts := by
  induction ts generalizing mode stack with
  | nil =>
    rw [run] at h
    split at h
    · cases h
    · cases h
      exact List.suffix_rfl
    · cases h
  | cons t ts ih =>
    rw [run] at h
    split at h
    · cases h
    · cases h
      exact List.suffix_rfl
    · exact (ih h).trans (List.suffix_cons t ts)

end Clausal.Parse
