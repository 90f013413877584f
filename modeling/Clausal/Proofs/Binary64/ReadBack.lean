import Clausal.Binary64.Layout
import Clausal.Proofs.Binary64.Nearest
import Clausal.Proofs.Token.Numeral

/-!
# Numbers read back

The shortest decimal of a number rounds to the number: every decimal that is tried is tested by rounding,
and the exact expansion needs no test. Wherever a layout puts the point, and whatever zeros it adds, the
digits and the exponent still make up this decimal, so the text of a number is read as the number.
-/

namespace Clausal.Binary64

namespace Decimal

/-- The rational that a decimal is. -/
def value (d : Decimal) : ℚ := d.digits * 10 ^ d.exponent

/-- A decimal other than zero that is nearest to a number. -/
structure Denotes (d : Decimal) (code : ℕ) : Prop where
  digits_ne : d.digits ≠ 0
  nearest_eq : nearest d.value = code

theorem readsBack_iff (d : Decimal) (code : ℕ) : d.readsBack code = true ↔ nearest d.value = code := by
  have hden := scaled_den_pos (by decide : 0 < 10) d.digits d.exponent
  have hratio := scaled_ratio (by decide : 0 < 10) d.digits d.exponent
  simp only [readsBack, fraction, nearestCode_eq _ hden, hratio, beq_iff_eq]
  exact Iff.rfl

theorem denotes_of_readsBack {d : Decimal} {code : ℕ} (h : d.readsBack code = true) (hcode : code ≠ 0) :
    d.Denotes code := by
  have hnear := (readsBack_iff d code).1 h
  refine ⟨fun hzero => hcode ?_, hnear⟩
  rw [← hnear, value, hzero]
  simp [nearest]

theorem Denotes.stripZeros {code : ℕ} : ∀ (fuel : ℕ) {d : Decimal}, d.Denotes code →
    (d.stripZeros fuel).Denotes code := by
  intro fuel
  induction fuel with
  | zero =>
    intro d h
    exact h
  | succ fuel ih =>
    intro d h
    rw [Decimal.stripZeros]
    split
    · rename_i hzero
      have hdigits : d.digits = d.digits / 10 * 10 := (Nat.div_mul_cancel (Nat.dvd_of_mod_eq_zero hzero.1)).symm
      refine ih ⟨fun h₀ => hzero.2 ?_, ?_⟩
      · have h₀' : d.digits / 10 = 0 := h₀
        rw [hdigits, h₀', Nat.zero_mul]
      · rw [← h.nearest_eq, value, value]
        congr 1
        conv_rhs => rw [hdigits]
        rw [zpow_add₀ (by norm_num : (10 : ℚ) ≠ 0), zpow_one]
        push_cast
        ring
    · exact h

end Decimal

open Decimal

theorem denotes_gridNeighbour? {tie : Tie} {code num den : ℕ} {e : ℤ} {d : Decimal} (hcode : code ≠ 0)
    (h : gridNeighbour? tie code num den e = some d) : d.Denotes code := by
  unfold gridNeighbour? at h
  generalize (if 0 ≤ e then (num, den * Nat.pow 10 e.toNat) else (num * Nat.pow 10 (-e).toNat, den)) = grid
    at h
  simp only at h
  split at h
  · rename_i hlow hhigh
    cases h
    split
    · exact denotes_of_readsBack hhigh hcode
    · exact denotes_of_readsBack hlow hcode
  · rename_i hlow hhigh
    cases h
    exact denotes_of_readsBack hlow hcode
  · rename_i hlow hhigh
    cases h
    exact denotes_of_readsBack hhigh hcode
  · cases h

theorem value_exactDecimal (code : ℕ) : (exactDecimal code).value = size code := by
  unfold exactDecimal
  simp only
  split
  · rename_i hq
    obtain ⟨n, hn⟩ := Int.eq_ofNat_of_zero_le hq
    simp [value, size, hn]
  · rename_i hq
    obtain ⟨n, hn⟩ := Int.eq_ofNat_of_zero_le (show 0 ≤ -exponent code by omega)
    have hq' : exponent code = -(n : ℤ) := by omega
    have hten : (10 : ℚ) ^ n = 2 ^ n * 5 ^ n := by
      rw [← mul_pow]
      norm_num
    simp only [value, size, hq', neg_neg, Int.toNat_natCast, zpow_neg, zpow_natCast, hten,
      Nat.pow_eq]
    push_cast
    field_simp

theorem denotes_shortest (tie : Tie) {code : ℕ} (h₀ : code ≠ 0) (h : code < infinityCode) :
    (shortest tie code).Denotes code := by
  unfold shortest
  simp only
  refine Denotes.stripZeros 800 ?_
  cases hfound : (List.range 17).findSome? fun (n : ℕ) =>
      gridNeighbour? tie code (fraction code).1 (fraction code).2
        (decimalLead (fraction code).1 (fraction code).2 - (n : ℤ)) with
  | none =>
    refine ⟨?_, ?_⟩
    · have hm := mantissa_pos h₀
      rw [Option.getD_none, exactDecimal]
      split
      · exact (Nat.mul_pos hm (Nat.pow_pos (by decide))).ne'
      · exact (Nat.mul_pos hm (Nat.pow_pos (by decide))).ne'
    · rw [Option.getD_none, value_exactDecimal, nearest_size h₀ h]
  | some d =>
    obtain ⟨n, _, hn⟩ := List.exists_of_findSome?_eq_some hfound
    exact denotes_gridNeighbour? h₀ hn

/-- Zeros that a layout adds to the digits are taken back by the exponent. -/
theorem ofDecimal_of_denotes {d : Decimal} {code : ℕ} (h : d.Denotes code)
    {digits k : ℕ} {e : ℤ} (hdigits : digits = d.digits * 10 ^ k) (he : e = d.exponent - k) :
    ofDecimal false digits e = ofCode false code := by
  have hne : digits ≠ 0 := by
    rw [hdigits]
    exact (Nat.mul_pos (Nat.pos_of_ne_zero h.digits_ne) (Nat.pow_pos (by decide))).ne'
  have hvalue : (digits : ℚ) * 10 ^ e = d.value := by
    have ten : (10 : ℚ) ≠ 0 := by norm_num
    rw [value, hdigits, he, zpow_sub₀ ten, zpow_natCast]
    push_cast
    field_simp
  rw [ofDecimal_eq false hne, hvalue, h.nearest_eq]

end Clausal.Binary64

namespace Clausal.Token

open Binary64 Text

/-- The text of a number, by its parts, and the number that they are read as. -/
inductive IsSize (code : ℕ) : List Char → Prop
  | parts (w f e : List Char) (hne : w ≠ []) (hw : ∀ c ∈ w, c.isDigit = true) (hf : IsFraction f)
      (he : IsExponent e) (hkind : numeralKind w f e = .float (ofCode false code)) :
      IsSize code (w ++ (f ++ e))

theorem decimal_append (cs ds : List Char) : decimal (cs ++ ds) = Nat.ofDigitChars 10 ds (decimal cs) := by
  rw [decimal, decimal, Nat.ofDigitChars_append]

theorem decimal_zeros_append (n : ℕ) (ds : List Char) :
    decimal (List.replicate n '0' ++ ds) = decimal ds := by
  have hzero : decimal (List.replicate n '0') = 0 := by
    rw [decimal, Nat.ofDigitChars_replicate_zero, Nat.mul_zero]
  rw [decimal_append, hzero, decimal]

theorem decimal_append_zeros (ds : List Char) (n : ℕ) :
    decimal (ds ++ List.replicate n '0') = decimal ds * 10 ^ n := by
  rw [decimal_append, Nat.ofDigitChars_replicate_zero, Nat.mul_comm]

private theorem isDigit_zeros (n : ℕ) : ∀ c ∈ List.replicate n '0', c.isDigit = true := by
  intro c hc
  rw [(List.mem_replicate.1 hc).2]
  decide

private theorem isDigit_append {cs ds : List Char} (hc : ∀ c ∈ cs, c.isDigit = true)
    (hd : ∀ c ∈ ds, c.isDigit = true) : ∀ c ∈ cs ++ ds, c.isDigit = true :=
  List.forall_mem_append.2 ⟨hc, hd⟩

theorem isFraction_places {ds : List Char} (hne : ds ≠ []) (h : ∀ c ∈ ds, c.isDigit = true) :
    IsFraction ('.' :: ds) := by
  obtain ⟨c, cs, rfl⟩ := List.exists_cons_of_ne_nil hne
  exact .places c cs h

/-- A numeral with a point and no exponent. -/
theorem numeralKind_places (w ds : List Char) :
    numeralKind w ('.' :: ds) [] = .float (ofDecimal false (decimal (w ++ ds)) (-(ds.length : ℤ))) := by
  simp [numeralKind, exponentValue?, splitSign]

/-- Digits with zeros on both sides and a point among them. -/
theorem isSize_places {d : Decimal} {code : ℕ} (h : d.Denotes code) {w ds : List Char} (before after : ℕ)
    (hne : w ≠ []) (hne' : ds ≠ [])
    (hdigits : w ++ ds = List.replicate before '0' ++ (Nat.toDigits 10 d.digits ++ List.replicate after '0'))
    (hplaces : -(ds.length : ℤ) = d.exponent - after) : IsSize code (w ++ '.' :: ds) := by
  have hall : ∀ c ∈ w ++ ds, c.isDigit = true := by
    rw [hdigits]
    exact isDigit_append (isDigit_zeros _) (isDigit_append (isDigit_toDigits _) (isDigit_zeros _))
  obtain ⟨hw, hds⟩ := List.forall_mem_append.1 hall
  have hdecimal : decimal (w ++ ds) = d.digits * 10 ^ after := by
    rw [hdigits, decimal_zeros_append, decimal_append_zeros, decimal_toDigits]
  have hkind : numeralKind w ('.' :: ds) [] = .float (ofCode false code) := by
    rw [numeralKind_places, ofDecimal_of_denotes h hdecimal hplaces]
  have hsize := IsSize.parts w ('.' :: ds) [] hne hw (isFraction_places hne' hds) .none hkind
  rwa [List.append_nil] at hsize

theorem isSize_positional {d : Decimal} {code : ℕ} (h : d.Denotes code) {lead : ℤ}
    (hlead : lead = d.exponent + (Nat.toDigits 10 d.digits).length - 1) :
    IsSize code (positional (Nat.toDigits 10 d.digits) lead) := by
  have hne := toDigits_ne_nil d.digits
  generalize hds : Nat.toDigits 10 d.digits = ds at *
  have hpos : 0 < ds.length := List.length_pos_of_ne_nil hne
  unfold positional
  split
  · rename_i hneg
    have htail : List.replicate (-lead - 1).toNat '0' ++ ds ≠ [] := by simp [hne]
    have hw : ['0'] ≠ [] := List.cons_ne_nil _ _
    refine isSize_places h ((-lead - 1).toNat + 1) 0 hw htail ?_ ?_
    · simp [hds, List.replicate_succ]
    · simp only [List.length_append, List.length_replicate]
      omega
  · rename_i hpos'
    by_cases hlong : lead.toNat + 1 < ds.length
    · -- The point stands among the digits.
      have hpad : lead.toNat + 1 - ds.length = 0 := by omega
      have hrest : (ds.drop (lead.toNat + 1)) ≠ [] := by
        intro hnil
        have := List.drop_eq_nil_iff.1 hnil
        omega
      have hwhole : ds.take (lead.toNat + 1) ≠ [] := by
        simp [hne]
      simp only [hpad, List.replicate_zero, List.append_nil, List.isEmpty_iff, if_neg hrest]
      refine isSize_places h 0 0 hwhole hrest ?_ ?_
      · simp [hds]
      · simp only [List.length_drop]
        omega
    · -- The point stands after the digits and the zeros that fill up to it.
      have hlen : (ds ++ List.replicate (lead.toNat + 1 - ds.length) '0').length = lead.toNat + 1 := by
        simp only [List.length_append, List.length_replicate]
        omega
      simp only [List.drop_of_length_le hlen.le, List.take_of_length_le hlen.le, List.isEmpty_nil, if_true]
      refine isSize_places h 0 (lead.toNat + 1 - ds.length + 1) (by simp [hne]) (List.cons_ne_nil _ _) ?_ ?_
      · simp [hds, List.replicate_succ']
      · simp only [List.length_singleton]
        omega

/-- The exponent of a layout is read as the number that was written. -/
private theorem exponentValue_lead (lead : ℤ) :
    exponentValue? ((if lead < 0 then ['-'] else []) ++ Nat.toDigits 10 lead.natAbs) = some lead := by
  have hsign : (if lead < 0 then ['-'] else []) = [] ∨ (if lead < 0 then ['-'] else []) = ['-'] := by
    split
    · exact .inr rfl
    · exact .inl rfl
  rw [exponentValue_digits hsign (toDigits_ne_nil _) (isDigit_toDigits _), decimal_toDigits]
  by_cases hneg : lead < 0
  · simp only [if_pos hneg, if_true]
    congr 1
    omega
  · simp only [if_neg hneg, List.nil_eq, reduceCtorEq, if_false]
    congr 1
    omega

theorem isSize_scientific {d : Decimal} {code : ℕ} (h : d.Denotes code) {lead : ℤ}
    (hlead : lead = d.exponent + (Nat.toDigits 10 d.digits).length - 1) :
    IsSize code (scientific false (Nat.toDigits 10 d.digits) lead) := by
  have hdigit := isDigit_toDigits d.digits
  have hdecimal := decimal_toDigits d.digits
  obtain ⟨c, cs, hds⟩ := List.exists_cons_of_ne_nil (toDigits_ne_nil d.digits)
  rw [hds] at hdigit hdecimal hlead
  let f := if cs = [] then [] else '.' :: cs
  let sign := if lead < 0 then ['-'] else []
  have hf : IsFraction f := by
    by_cases hcs : cs = []
    · rw [show f = [] from if_pos hcs]
      exact .none
    · rw [show f = '.' :: cs from if_neg hcs]
      exact isFraction_places hcs fun x hx => hdigit x (List.mem_cons_of_mem _ hx)
  have hplaces : f.drop 1 = cs := by
    by_cases hcs : cs = []
    · rw [show f = [] from if_pos hcs, hcs, List.drop_nil]
    · rw [show f = '.' :: cs from if_neg hcs, List.drop_one, List.tail_cons]
  have hsign : sign = [] ∨ sign = ['-'] := by
    by_cases hneg : lead < 0
    · exact .inr (if_pos hneg)
    · exact .inl (if_neg hneg)
  have he : IsExponent ('e' :: (sign ++ Nat.toDigits 10 lead.natAbs)) :=
    .power sign _ hsign (toDigits_ne_nil _) (isDigit_toDigits _)
  have hkind : numeralKind [c] f ('e' :: (sign ++ Nat.toDigits 10 lead.natAbs)) =
      .float (ofCode false code) := by
    have hvalue : exponentValue? (sign ++ Nat.toDigits 10 lead.natAbs) = some lead := exponentValue_lead lead
    rw [numeralKind, if_neg fun hnil => List.cons_ne_nil _ _ hnil.2, hplaces, List.drop_one, List.tail_cons,
      hvalue, Option.getD_some]
    refine congrArg Kind.float (ofDecimal_of_denotes h (k := 0) ?_ ?_)
    · rw [List.singleton_append, hdecimal, Nat.pow_zero, Nat.mul_one]
    · rw [hlead, List.length_cons]
      push_cast
      omega
  have htext : scientific false (Nat.toDigits 10 d.digits) lead =
      [c] ++ (f ++ 'e' :: (sign ++ Nat.toDigits 10 lead.natAbs)) := by
    rw [hds]
    by_cases hcs : cs = []
    · simp [scientific, f, sign, hcs]
    · have hlen : 0 < cs.length := List.length_pos_of_ne_nil hcs
      simp [scientific, f, sign, hcs]
  rw [htext]
  exact .parts [c] f _ (List.cons_ne_nil _ _) (fun x hx => hdigit x (by simp [List.mem_singleton.1 hx])) hf he
    hkind

/-- The text of a number's size is read as the number. -/
theorem isSize_sizeText {code : ℕ} (hcode : code < infinityCode) :
    IsSize code (sizeText .statement code) := by
  unfold sizeText
  split
  · rename_i hzero
    subst hzero
    have hkind : numeralKind ['0'] ['.', '0'] [] = .float (ofCode false 0) := by decide
    have zero : ∀ x ∈ ['0'], x.isDigit = true := List.all_eq_true.1 (by decide)
    exact .parts ['0'] ['.', '0'] [] (List.cons_ne_nil _ _) zero (.places '0' [] zero) .none hkind
  · rename_i hne
    have h := denotes_shortest Layout.statement.tie hne hcode
    simp only
    split
    · exact isSize_positional h rfl
    · exact isSize_scientific h rfl

theorem IsSize.kinds_append {code : ℕ} {text : List Char} (h : IsSize code text) {rest : List Char}
    (hrest : Apart rest) : kinds (text ++ rest) = .float (ofCode false code) :: kinds rest := by
  cases h with
  | parts w f e hne hw hf he hkind =>
    rw [List.append_assoc, List.append_assoc, kinds_numeral hne hw hf he hrest, hkind]

theorem IsSize.head_ne_minus {code : ℕ} {text rest : List Char} (h : IsSize code text) :
    (text ++ rest).head? ≠ some '-' := by
  cases h with
  | parts w f e hne hw hf he hkind =>
    obtain ⟨c, cs, rfl⟩ := List.exists_cons_of_ne_nil hne
    intro hminus
    obtain rfl : c = '-' := by simpa using hminus
    exact absurd (hw '-' List.mem_cons_self) (by decide)

theorem ofCode_of_isFinite {x : Binary64} (h : x.isFinite = true) :
    ofCode x.negative x.code.val = x := by
  have hlt : x.code.val < infinityCode := of_decide_eq_true h
  rw [ofCode, dif_pos hlt]

/-- A finite number with something apart after it is one token, or two if there is a minus sign. -/
theorem kinds_float {x : Binary64} (h : x.isFinite = true) {rest : List Char} (hrest : Apart rest) :
    kinds ((x.text .statement).toList ++ rest) =
      if x.negative then .symbol .minus :: .float x.neg :: kinds rest else .float x :: kinds rest := by
  have hlt : x.code.val < infinityCode := of_decide_eq_true h
  have hnan : x.isNaN = false := decide_eq_false (Nat.lt_asymm hlt)
  have hsize := isSize_sizeText hlt
  have hkinds := hsize.kinds_append hrest
  have hcode := ofCode_of_isFinite h
  rw [Binary64.text, hnan, h]
  simp only [Bool.false_eq_true, if_false, if_true]
  obtain ⟨negative, code⟩ := x
  cases negative with
  | false =>
    simp only [Bool.false_eq_true, if_false, String.toList_ofList]
    rw [hkinds]
    exact congrArg (fun y => Kind.float y :: kinds rest) hcode
  | true =>
    have hneg : ofCode false code.val = ⟨false, code⟩ :=
      ofCode_of_isFinite (x := ⟨false, code⟩) h
    simp only [if_true, String.toList_ofList, List.cons_append]
    rw [kinds_minus hsize.head_ne_minus, hkinds, hneg]
    rfl

end Clausal.Token
