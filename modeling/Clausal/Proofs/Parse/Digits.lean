import Clausal.Parse.Statement
import Clausal.Proofs.Parse.Uses
import Clausal.Proofs.Token.Tiling
import Clausal.Proofs.Token.Numeral

/-!
# Reading digits

A run of decimal digits is read as the number that it denotes, or it is refused. Each place has its own bound, and at
each of them the number goes through types of other widths before it is kept. A number that is in bounds is never
refused for its size, and one that is not is never kept as another one.
-/

namespace Clausal.Parse

open Token (Kind decimal wholeKind indexKind)

/-- Below the bound a number is kept as something that denotes it, and reading goes on with that. From the bound on
reading fails. -/
def KeptBelow {α β : Type} (bound n : Nat) (denotes : α → Prop) (outcome : Except Failure β)
    (going : α → Except Failure β) : Prop :=
  (n < bound → ∃ x, denotes x ∧ outcome = going x) ∧ (bound ≤ n → ∃ f, outcome = .error f)

/-- The mode is one in which an operand may begin, inside the frames of the second stack. -/
inductive Mode.Begins (stack : List Frame) : Mode → List Frame → Prop where
  | operand : Begins stack .operand stack
  | arguments (f : String) : Begins stack (.arguments f) (.argument f false [] :: stack)
  | firstArgument (f : String) (distinct : Bool) :
    Begins stack (.firstArgument f distinct) (.argument f distinct [] :: stack)

/-- Wherever digits stand, they are read as the number that they denote or not at all. -/
structure ReadsDigits (ds : List Char) : Prop where
  /-- Digits by themselves are one token. -/
  whole : ∀ {rest}, Token.Apart rest → Token.kinds (ds ++ rest) = wholeKind ds :: Token.kinds rest
  /-- A token that is written with the digits is that one. -/
  whole_of_holds : ∀ {text}, ∀ t ∈ Token.scan text, t.span.Holds text ds → t.kind = wholeKind ds
  /-- Digits after a question mark are one token with it. -/
  index : ∀ {rest}, Token.Apart rest → Token.kinds ('?' :: (ds ++ rest)) = indexKind ds :: Token.kinds rest
  /-- A token that is written with a question mark and the digits is that one. -/
  index_of_holds : ∀ {text}, ∀ t ∈ Token.scan text, t.span.Holds text ('?' :: ds) → t.kind = indexKind ds
  /-- A number in an expression. -/
  operand : ∀ {m floor stop mode stack inner t ts}, Mode.Begins stack mode inner → t.kind = wholeKind ds →
    KeptBelow (2 ^ 63) (decimal ds) (fun i : Int64 => i.toInt = decimal ds) (run m floor stop (t :: ts) mode stack)
      fun i => run m floor stop ts (.operator (.literal (.integer i))) inner
  /-- A minus sign in front of an operand, which is not passed over. -/
  minus : ∀ {m floor stop mode stack inner span ts}, Mode.Begins stack mode inner →
    run m floor stop (⟨.symbol .minus, span⟩ :: ts) mode stack = run m floor stop ts .negated inner
  /-- A minus sign after another one. -/
  minuses : ∀ {m floor stop stack span ts},
    run m floor stop (⟨.symbol .minus, span⟩ :: ts) .negated stack = run m floor stop ts .negated (.unary .neg :: stack)
  /-- A number after a minus sign in front of an operand. -/
  negated : ∀ {m floor stop stack t ts}, t.kind = wholeKind ds →
    KeptBelow (2 ^ 63 + 1) (decimal ds) (fun i : Int64 => i.toInt = -decimal ds)
      (run m floor stop (t :: ts) .negated stack) fun i => run m floor stop ts (.operator (.literal (.integer i))) stack
  /-- A placeholder in an expression. -/
  param : ∀ {m floor stop mode stack inner t ts}, Mode.Begins stack mode inner → t.kind = indexKind ds →
    KeptBelow (2 ^ 32) (decimal ds) (fun n : UInt32 => n.toNat = decimal ds) (run m floor stop (t :: ts) mode stack)
      fun n => run m floor stop ts (.operator (.param (.positional n))) inner
  /-- A count of rows. -/
  count : ∀ {k span t ts c}, k = Keyword.limit ∨ k = Keyword.offset → c.tokens = ⟨.keyword k, span⟩ :: t :: ts →
    t.kind = wholeKind ds →
    KeptBelow (2 ^ 64) (decimal ds) (fun n : UInt64 => n.toNat = decimal ds) ((count k).run c)
      fun n => .ok (some n, { c with tokens := ts })
  /-- An argument of a column type. -/
  argument : ∀ {t ts c}, c.tokens = t :: ts → t.kind = wholeKind ds →
    KeptBelow (2 ^ 32) (decimal ds) (fun n : UInt32 => n.toNat = decimal ds) (typeArgument.run c)
      fun n => .ok (n, { c with tokens := ts })

variable {m : Aliases} {floor stop : Nat} {mode : Mode} {stack inner : List Frame} {t : Token} {ts : List Token}
  {ds : List Char}

/-! ### Steps -/

/-- Digits are a token with their number, unless sixty-four bits do not hold it. -/
private theorem wholeKind_cases (ds : List Char) :
    (∃ n : UInt64, wholeKind ds = .integer n ∧ n.toNat = decimal ds) ∨
      2 ^ 64 ≤ decimal ds ∧ ∃ text, wholeKind ds = .malformed (.bigInteger text) := by
  unfold wholeKind
  split
  · rename_i hsize
    exact .inl ⟨_, rfl, UInt64.toNat_ofNat_of_lt' hsize⟩
  · rename_i hsize
    exact .inr ⟨Nat.not_lt.1 hsize, _, rfl⟩

private theorem indexKind_cases (ds : List Char) :
    (∃ n : UInt32, indexKind ds = .positional n ∧ n.toNat = decimal ds) ∨
      2 ^ 32 ≤ decimal ds ∧ indexKind ds = .malformed .missingIndex := by
  unfold indexKind
  split
  · rename_i hsize
    exact .inl ⟨_, rfl, UInt32.toNat_ofNat_of_lt' hsize⟩
  · rename_i hsize
    exact .inr ⟨Nat.not_lt.1 hsize, rfl⟩

private theorem step_begins (h : Mode.Begins stack mode inner) (hdistinct : t.kind ≠ .keyword .distinct)
    (hclosing : t.kind ≠ .symbol .rightParen) : step m floor mode stack t = beginOperand inner t := by
  cases h with
  | operand => rfl
  | arguments f =>
    unfold step beginArgument
    dsimp only
    rw [if_neg hdistinct, if_neg hclosing]
  | firstArgument f distinct =>
    unfold step beginArgument
    dsimp only
    rw [if_neg hclosing]

/-- What the first step decides is decided for the whole run. -/
private theorem keptBelow_run {α : Type} {bound n : Nat} {denotes : α → Prop} {e : α → Expr}
    (h : KeptBelow bound n denotes (step m floor mode stack t) fun x => .ok (.shift (.operator (e x)) inner)) :
    KeptBelow bound n denotes (run m floor stop (t :: ts) mode stack) fun x =>
      run m floor stop ts (.operator (e x)) inner := by
  refine ⟨fun hn => ?_, fun hn => ?_⟩
  · obtain ⟨x, hx, hstep⟩ := h.1 hn
    exact ⟨x, hx, by rw [run, hstep]⟩
  · obtain ⟨f, hstep⟩ := h.2 hn
    exact ⟨f, by rw [run, hstep]⟩

/-- A whole number is kept if it is in bounds, and the sign in front of it is kept with it. -/
private theorem keptBelow_readInteger (negative : Bool) (n : UInt64) (span : Span) (stack : List Frame) :
    KeptBelow (if negative then 2 ^ 63 + 1 else 2 ^ 63) n.toNat
      (fun i : Int64 => i.toInt = if negative then -(n.toNat : Int) else n.toNat)
      (readInteger negative n span stack) fun i => .ok (.shift (.operator (.literal (.integer i))) stack) := by
  refine ⟨fun hn => ?_, fun hn => ?_⟩
  · obtain ⟨i, hi⟩ : ∃ i : Int64, i.toInt = if negative then -(n.toNat : Int) else n.toNat := by
      refine ⟨Int64.ofInt _, Int64.toInt_ofInt_of_le ?_ ?_⟩
      all_goals cases negative <;> simp only [if_true, Bool.false_eq_true, if_false] at hn ⊢ <;> omega
    refine ⟨i, hi, readInteger_eq_ok.2 ⟨_, integer?_eq_some_iff.2 ⟨i, ?_, rfl⟩, rfl⟩⟩
    rw [hi]
    cases negative with
    | true => exact if_pos (Nat.le_of_lt_succ hn)
    | false => exact if_pos hn
  · cases hread : readInteger negative n span stack with
    | error f => exact ⟨f, rfl⟩
    | ok s =>
      obtain ⟨e, he, -⟩ := readInteger_eq_ok.1 hread
      obtain ⟨i, hbound, -⟩ := integer?_eq_some_iff.1 he
      cases negative with
      | true =>
        have hlarge : ¬ n.toNat ≤ 2 ^ 63 := Nat.not_le.2 hn
        simp only [Position.ofSign, Position.number?, if_true, if_neg hlarge] at hbound
        cases hbound
      | false =>
        have hlarge : ¬ n.toNat < 2 ^ 63 := Nat.not_lt.2 hn
        simp only [Position.ofSign, Position.number?, Bool.false_eq_true, if_false, if_neg hlarge] at hbound
        cases hbound

private theorem beginOperand_malformed {fault : Token.Fault} (ht : t.kind = .malformed fault) (stack : List Frame) :
    beginOperand stack t = .error ⟨.malformed fault, t.span⟩ := by
  rw [beginOperand, ht]

/-! ### Places -/

private theorem kept_operand (h : Mode.Begins stack mode inner) (ht : t.kind = wholeKind ds) :
    KeptBelow (2 ^ 63) (decimal ds) (fun i : Int64 => i.toInt = decimal ds) (run m floor stop (t :: ts) mode stack)
      fun i => run m floor stop ts (.operator (.literal (.integer i))) inner := by
  refine keptBelow_run ?_
  rcases wholeKind_cases ds with ⟨n, hkind, hn⟩ | ⟨hlarge, text, hkind⟩
  · rw [hkind] at ht
    rw [step_begins h (by simp [ht]) (by simp [ht]), beginOperand_integer ht, ← hn]
    exact keptBelow_readInteger false n t.span inner
  · rw [hkind] at ht
    rw [step_begins h (by simp [ht]) (by simp [ht]), beginOperand_malformed ht]
    exact ⟨fun hn => by omega, fun _ => ⟨_, rfl⟩⟩

private theorem kept_negated (ht : t.kind = wholeKind ds) :
    KeptBelow (2 ^ 63 + 1) (decimal ds) (fun i : Int64 => i.toInt = -decimal ds)
      (run m floor stop (t :: ts) .negated stack) fun i => run m floor stop ts (.operator (.literal (.integer i))) stack := by
  refine keptBelow_run ?_
  rcases wholeKind_cases ds with ⟨n, hkind, hn⟩ | ⟨hlarge, text, hkind⟩
  · rw [hkind] at ht
    rw [step_negated_integer ht, ← hn]
    exact keptBelow_readInteger true n t.span stack
  · rw [hkind] at ht
    have hfails : step m floor .negated stack t = .error ⟨.malformed (.bigInteger text), t.span⟩ := by
      unfold step
      rw [ht]
      exact beginOperand_malformed ht _
    rw [hfails]
    exact ⟨fun hn => by omega, fun _ => ⟨_, rfl⟩⟩

private theorem kept_param (h : Mode.Begins stack mode inner) (ht : t.kind = indexKind ds) :
    KeptBelow (2 ^ 32) (decimal ds) (fun n : UInt32 => n.toNat = decimal ds) (run m floor stop (t :: ts) mode stack)
      fun n => run m floor stop ts (.operator (.param (.positional n))) inner := by
  refine keptBelow_run (e := fun n => .param (.positional n)) ?_
  rcases indexKind_cases ds with ⟨n, hkind, hn⟩ | ⟨hlarge, hkind⟩
  · rw [hkind] at ht
    rw [step_begins h (by simp [ht]) (by simp [ht]), beginOperand, ht]
    have hbound : n.toNat < 2 ^ 32 := n.toNat_lt
    exact ⟨fun _ => ⟨n, hn, rfl⟩, fun hlarge => by omega⟩
  · rw [hkind] at ht
    rw [step_begins h (by simp [ht]) (by simp [ht]), beginOperand_malformed ht]
    exact ⟨fun hn => by omega, fun _ => ⟨_, rfl⟩⟩

/-- A whole number is read if the next token is one. -/
private theorem integer_run {c : Cursor} (hc : c.tokens = t :: ts) :
    (∀ n, t.kind = .integer n → Parse.integer.run c = .ok (n, { c with tokens := ts })) ∧
      ((∀ n, t.kind ≠ .integer n) → ∃ f, Parse.integer.run c = .error f) := by
  obtain ⟨tokens, stop, m⟩ := c
  obtain rfl : tokens = t :: ts := hc
  obtain ⟨k, span⟩ := t
  refine ⟨?_, fun hother => ?_⟩
  · rintro n rfl
    rfl
  · cases k with
    | integer n => exact absurd rfl (hother n)
    | _ => exact ⟨_, rfl⟩

private theorem eat_run {k : Kind} {c : Cursor} (h : c.kind = k) : (eat k).run c = .ok (true, c.next) := by
  show (if c.kind = k then (skip >>= fun _ => pure true : Parser Bool) else pure false).run c = _
  rw [if_pos h]
  rfl

private theorem kept_count {k : Keyword} {span : Span} {c : Cursor}
    (hc : c.tokens = ⟨.keyword k, span⟩ :: t :: ts) (ht : t.kind = wholeKind ds) :
    KeptBelow (2 ^ 64) (decimal ds) (fun n : UInt64 => n.toNat = decimal ds) ((count k).run c)
      fun n => .ok (some n, { c with tokens := ts }) := by
  have hnext : c.next.tokens = t :: ts := congrArg List.tail hc
  have hcount : (count k).run c = (Parse.integer.run c.next).map fun r => (some r.1, r.2) := by
    have hkind : c.kind = .keyword k := by rw [Cursor.kind, hc]
    rw [count, eatKeyword, StateT.run_bind, eat_run hkind]
    show (Parse.integer >>= fun n => pure (some n)).run c.next = _
    rw [StateT.run_bind]
    cases Parse.integer.run c.next <;> rfl
  obtain ⟨hread, hother⟩ := integer_run hnext
  rw [hcount]
  rcases wholeKind_cases ds with ⟨n, hkind, hn⟩ | ⟨hlarge, text, hkind⟩
  · rw [hread n (ht.trans hkind)]
    have hbound : n.toNat < 2 ^ 64 := n.toNat_lt
    exact ⟨fun _ => ⟨n, hn, rfl⟩, fun hlarge => by omega⟩
  · obtain ⟨f, hf⟩ := hother (by simp [ht, hkind])
    rw [hf]
    exact ⟨fun hn => by omega, fun _ => ⟨f, rfl⟩⟩

private theorem kept_argument {c : Cursor} (hc : c.tokens = t :: ts) (ht : t.kind = wholeKind ds) :
    KeptBelow (2 ^ 32) (decimal ds) (fun n : UInt32 => n.toNat = decimal ds) (typeArgument.run c)
      fun n => .ok (n, { c with tokens := ts }) := by
  have hargument : typeArgument.run c = (Parse.integer >>= fun n =>
      if n.toNat < UInt32.size then pure (UInt32.ofNat n.toNat) else fail .argumentRange c.span).run c := rfl
  obtain ⟨hread, hother⟩ := integer_run hc
  rw [hargument, StateT.run_bind]
  rcases wholeKind_cases ds with ⟨n, hkind, hn⟩ | ⟨hlarge, text, hkind⟩
  · rw [hread n (ht.trans hkind)]
    refine ⟨fun hsmall => ⟨UInt32.ofNat n.toNat, ?_, ?_⟩, fun hlarge => ⟨⟨.argumentRange, c.span⟩, ?_⟩⟩
    · exact (UInt32.toNat_ofNat_of_lt' (hn.symm ▸ hsmall)).trans hn
    · show StateT.run (if n.toNat < UInt32.size then pure (UInt32.ofNat n.toNat) else _) _ = _
      rw [if_pos (hn.symm ▸ hsmall)]
      rfl
    · show StateT.run (if n.toNat < UInt32.size then pure (UInt32.ofNat n.toNat) else _) _ = _
      rw [if_neg (Nat.not_lt.2 (hn.symm ▸ hlarge))]
      rfl
  · obtain ⟨f, hf⟩ := hother (by simp [ht, hkind])
    rw [hf]
    exact ⟨fun hn => by omega, fun _ => ⟨f, rfl⟩⟩

/-- Digits are never wrapped or cut off. -/
theorem readsDigits (hne : ds ≠ []) (hds : ∀ c ∈ ds, c.isDigit = true) : ReadsDigits ds where
  whole := Token.kinds_whole hne hds
  whole_of_holds t ht hspan := by
    obtain ⟨c, cs, rfl⟩ := List.exists_cons_of_ne_nil hne
    rw [Token.kind_of_holds ht hspan, Token.classify_digit (hds c List.mem_cons_self), Token.classifyNumber_digits hds]
  index := Token.kinds_index hne hds
  index_of_holds t ht hspan := by rw [Token.kind_of_holds ht hspan, Token.classify_index hne]
  operand := kept_operand
  minus h := by
    rw [run, step_begins h (fun hkind => by cases hkind) (fun hkind => by cases hkind), beginOperand]
  minuses := rfl
  negated := kept_negated
  param := kept_param
  count _ := kept_count
  argument := kept_argument

end Clausal.Parse
