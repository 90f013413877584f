import Clausal.Binary64.Shortest
import Mathlib.Algebra.Order.Floor.Semifield
import Mathlib.Data.Int.Log
import Mathlib.Data.Rat.Floor
import Mathlib.Tactic.FieldSimp
import Mathlib.Tactic.Linarith
import Mathlib.Tactic.Ring

/-!
# The nearest number of a rational

Rounding looks at a numerator and a denominator, but only their quotient matters. `nearest` is the same
rounding as a function of the quotient: the quotient is counted in units of `2 ^ quantum`, the least
unit in which its leading bit is not above the fifty-third. A number is its own nearest, what is large is
nearest to infinity, and what is small is nearest to zero. So the guards of `ofDecimal` decide nothing.
-/

namespace Clausal.Binary64

/-- A positive rational rounded to a whole number, a half to the even neighbour. -/
def roundEven (x : ℚ) : ℕ :=
  if 2 * (x - ⌊x⌋₊) < 1 then ⌊x⌋₊
  else if 1 < 2 * (x - ⌊x⌋₊) then ⌊x⌋₊ + 1
  else if ⌊x⌋₊ % 2 = 0 then ⌊x⌋₊ else ⌊x⌋₊ + 1

/-- The exponent of the unit in which a rational is counted. -/
def quantum (r : ℚ) : ℤ := max (-1074) (Int.log 2 r - 52)

def nearest (r : ℚ) : ℕ :=
  if r = 0 then 0
  else min infinityCode ((quantum r + 1074).toNat * fractions + roundEven (r / 2 ^ quantum r))

theorem roundedQuotient_eq (num : ℕ) {den : ℕ} (hden : 0 < den) :
    roundedQuotient num den = roundEven (num / den) := by
  have hd : (0 : ℚ) < den := by exact_mod_cast hden
  have hfloor : ⌊(num : ℚ) / den⌋₊ = num / den := Nat.floor_div_eq_div num den
  have hfrac : (num : ℚ) / den - (num / den : ℕ) = (num % den : ℕ) / den := by
    have h : (num : ℚ) = den * (num / den : ℕ) + (num % den : ℕ) := by
      exact_mod_cast (Nat.div_add_mod num den).symm
    rw [eq_div_iff hd.ne', sub_mul, div_mul_cancel₀ _ hd.ne']
    linarith
  have hlt : 2 * (((num % den : ℕ) : ℚ) / den) < 1 ↔ 2 * (num % den) < den := by
    rw [← mul_div_assoc, div_lt_one hd]
    exact_mod_cast Iff.rfl
  have hgt : 1 < 2 * (((num % den : ℕ) : ℚ) / den) ↔ den < 2 * (num % den) := by
    rw [← mul_div_assoc, one_lt_div hd]
    exact_mod_cast Iff.rfl
  simp only [roundedQuotient, roundEven, hfloor, hfrac, hlt, hgt]

theorem roundEven_natCast (n : ℕ) : roundEven n = n := by
  simp [roundEven]

/-- Rounding gives at least the whole part. -/
theorem floor_le_roundEven (x : ℚ) : ⌊x⌋₊ ≤ roundEven x := by
  unfold roundEven
  split
  · exact Nat.le_refl _
  split
  · exact Nat.le_succ _
  split
  · exact Nat.le_refl _
  · exact Nat.le_succ _

theorem roundEven_of_lt_half {x : ℚ} (h : 2 * x < 1) : roundEven x = 0 := by
  have hfloor : ⌊x⌋₊ = 0 := Nat.floor_eq_zero.2 (by linarith)
  simp [roundEven, hfloor, h]

/-! ### Scaled fractions -/

theorem scaled_den_pos {base : ℕ} (hbase : 0 < base) (m : ℕ) (e : ℤ) : 0 < (scaled base m e).2 := by
  unfold scaled
  split
  · exact Nat.one_pos
  · exact Nat.pow_pos hbase

theorem scaled_ratio {base : ℕ} (hbase : 0 < base) (m : ℕ) (e : ℤ) :
    ((scaled base m e).1 : ℚ) / (scaled base m e).2 = m * (base : ℚ) ^ e := by
  have hb : (base : ℚ) ≠ 0 := by exact_mod_cast hbase.ne'
  unfold scaled
  split
  · rename_i he
    obtain ⟨n, rfl⟩ := Int.eq_ofNat_of_zero_le he
    simp
  · rename_i he
    obtain ⟨n, hn⟩ := Int.eq_ofNat_of_zero_le (show 0 ≤ -e by omega)
    have he' : e = -(n : ℤ) := by omega
    subst he'
    simp [div_eq_mul_inv]

theorem leadingPower_eq {base : ℕ} (hbase : 1 < base) {num den : ℕ} (hnum : 0 < num) (hden : 0 < den)
    {guess : ℤ} (h₁ : (base : ℚ) ^ (guess - 1) ≤ num / den) (h₂ : (num : ℚ) / den < base ^ (guess + 1)) :
    leadingPower base num den guess = Int.log base ((num : ℚ) / den) := by
  have hd : (0 : ℚ) < den := by exact_mod_cast hden
  have hr : (0 : ℚ) < num / den := div_pos (by exact_mod_cast hnum) hd
  have hlow : guess - 1 ≤ Int.log base ((num : ℚ) / den) := (Int.zpow_le_iff_le_log hbase hr).1 h₁
  have hhigh : Int.log base ((num : ℚ) / den) < guess + 1 := (Int.lt_zpow_iff_log_lt hbase hr).1 h₂
  have hpos := scaled_den_pos (Nat.lt_of_succ_lt hbase) den guess
  have hs : (0 : ℚ) < (scaled base den guess).2 := by exact_mod_cast hpos
  have htest : (scaled base den guess).1 ≤ num * (scaled base den guess).2 ↔
      guess ≤ Int.log base ((num : ℚ) / den) := by
    rw [← Int.zpow_le_iff_le_log hbase hr, le_div_iff₀ hd, mul_comm ((base : ℚ) ^ guess),
      ← scaled_ratio (Nat.lt_of_succ_lt hbase), div_le_iff₀ hs]
    exact_mod_cast Iff.rfl
  unfold leadingPower
  simp only [htest]
  split <;> omega

theorem two_zpow_log2 {n : ℕ} (hn : 0 < n) :
    (2 : ℚ) ^ (n.log2 : ℤ) ≤ n ∧ (n : ℚ) < 2 ^ ((n.log2 : ℤ) + 1) := by
  have hlow : 2 ^ n.log2 ≤ n := Nat.log2_self_le hn.ne'
  have hhigh : n < 2 ^ (n.log2 + 1) := Nat.lt_log2_self
  constructor
  · rw [zpow_natCast]
    exact_mod_cast hlow
  · rw [← Int.natCast_succ, zpow_natCast]
    exact_mod_cast hhigh

theorem binaryLead_eq {num den : ℕ} (hnum : 0 < num) (hden : 0 < den) :
    binaryLead num den = Int.log 2 ((num : ℚ) / den) := by
  obtain ⟨hn₁, hn₂⟩ := two_zpow_log2 hnum
  obtain ⟨hd₁, hd₂⟩ := two_zpow_log2 hden
  have hd : (0 : ℚ) < den := by exact_mod_cast hden
  have two : (2 : ℚ) ≠ 0 := by norm_num
  refine leadingPower_eq (by decide) hnum hden ?_ ?_
  · rw [le_div_iff₀ hd]
    calc ((2 : ℕ) : ℚ) ^ ((num.log2 : ℤ) - den.log2 - 1) * den
        ≤ 2 ^ ((num.log2 : ℤ) - den.log2 - 1) * 2 ^ ((den.log2 : ℤ) + 1) := by
          exact mul_le_mul_of_nonneg_left hd₂.le (zpow_nonneg (by norm_num) _)
      _ = 2 ^ (num.log2 : ℤ) := by
          rw [← zpow_add₀ two]
          congr 1
          omega
      _ ≤ num := hn₁
  · rw [div_lt_iff₀ hd]
    calc (num : ℚ) < 2 ^ ((num.log2 : ℤ) + 1) := hn₂
      _ = 2 ^ ((num.log2 : ℤ) - den.log2 + 1) * 2 ^ (den.log2 : ℤ) := by
          rw [← zpow_add₀ two]
          congr 1
          omega
      _ ≤ ((2 : ℕ) : ℚ) ^ ((num.log2 : ℤ) - den.log2 + 1) * den :=
          mul_le_mul_of_nonneg_left hd₁ (zpow_nonneg (by norm_num) _)

/-- Rounding a fraction looks at the quotient only. -/
theorem nearestCode_eq (num : ℕ) {den : ℕ} (hden : 0 < den) : nearestCode num den = nearest (num / den) := by
  have hd : (0 : ℚ) < den := by exact_mod_cast hden
  unfold nearestCode nearest
  by_cases hnum : num = 0
  · simp [hnum]
  have hpos : 0 < num := Nat.pos_of_ne_zero hnum
  have hr : ((num : ℚ) / den) ≠ 0 := (div_pos (by exact_mod_cast hpos) hd).ne'
  have hq : max (-1074) (binaryLead num den - 52) = quantum (num / den) := by
    rw [binaryLead_eq hpos hden, quantum]
  rw [if_neg hnum, if_neg hr, hq]
  generalize quantum ((num : ℚ) / den) = q
  have hm : (if 0 ≤ q then roundedQuotient num (den * 2 ^ q.toNat)
      else roundedQuotient (num * 2 ^ (-q).toNat) den) = roundEven ((num : ℚ) / den / 2 ^ q) := by
    split
    · rename_i hq
      obtain ⟨n, rfl⟩ := Int.eq_ofNat_of_zero_le hq
      rw [roundedQuotient_eq _ (Nat.mul_pos hden (Nat.pow_pos (by decide)))]
      congr 1
      push_cast
      rw [Int.toNat_natCast, zpow_natCast, div_div]
    · rename_i hq
      obtain ⟨n, hn⟩ := Int.eq_ofNat_of_zero_le (show 0 ≤ -q by omega)
      have hq' : q = -(n : ℤ) := by omega
      subst hq'
      rw [roundedQuotient_eq _ hden]
      congr 1
      push_cast
      rw [neg_neg, Int.toNat_natCast, zpow_neg, zpow_natCast, div_inv_eq_mul, div_mul_eq_mul_div]
  simp only [Nat.pow_eq, hm]

/-! ### Numbers, infinity and zero -/

/-- The size of a finite number. -/
def size (code : ℕ) : ℚ := mantissa code * 2 ^ exponent code

theorem mantissa_pos {code : ℕ} (h : code ≠ 0) : 0 < mantissa code := by
  have hsplit := Nat.div_add_mod code fractions
  unfold mantissa
  split
  · rename_i hzero
    rw [hzero] at hsplit
    omega
  · exact Nat.add_pos_left (by decide) _

theorem nearest_of_quantum {r : ℚ} {q : ℤ} {m : ℕ} (hr : r = m * 2 ^ q) (hm : 0 < m)
    (hq : quantum r = q) : nearest r = min infinityCode ((q + 1074).toNat * fractions + m) := by
  have hpow : (0 : ℚ) < 2 ^ q := zpow_pos (by norm_num) q
  have hm' : (0 : ℚ) < m := by exact_mod_cast hm
  have hpos : r ≠ 0 := hr ▸ (mul_pos hm' hpow).ne'
  rw [nearest, if_neg hpos, hq, hr, mul_div_assoc, div_self hpow.ne', mul_one, roundEven_natCast]

theorem log_mul_zpow {m : ℕ} {q l : ℤ} (h₁ : (2 : ℚ) ^ l ≤ m) (h₂ : (m : ℚ) < 2 ^ (l + 1)) :
    Int.log 2 ((m : ℚ) * 2 ^ q) = l + q := by
  have two : (2 : ℚ) ≠ 0 := by norm_num
  have hpow : (0 : ℚ) < 2 ^ q := zpow_pos (by norm_num) q
  have hm : (0 : ℚ) < m := lt_of_lt_of_le (zpow_pos (by norm_num) l) h₁
  have hr : 0 < (m : ℚ) * 2 ^ q := mul_pos hm hpow
  have hlow : l + q ≤ Int.log 2 ((m : ℚ) * 2 ^ q) := by
    refine (Int.zpow_le_iff_le_log (by decide) hr).1 ?_
    rw [Nat.cast_ofNat, zpow_add₀ two]
    exact mul_le_mul_of_nonneg_right h₁ hpow.le
  have hhigh : Int.log 2 ((m : ℚ) * 2 ^ q) < l + q + 1 := by
    refine (Int.lt_zpow_iff_log_lt (by decide) hr).1 ?_
    rw [Nat.cast_ofNat, show l + q + 1 = l + 1 + q by omega, zpow_add₀ two]
    exact mul_lt_mul_of_pos_right h₂ hpow
  omega

/-- A finite number is its own nearest. -/
theorem nearest_size {code : ℕ} (h₀ : code ≠ 0) (h : code < infinityCode) : nearest (size code) = code := by
  have hsplit := Nat.div_add_mod code fractions
  have hlt : code % fractions < fractions := Nat.mod_lt _ (by decide)
  have hm := mantissa_pos h₀
  have hquantum : quantum (size code) = exponent code := by
    by_cases hsub : code / fractions = 0
    · -- Below the least exponent the leading bit is lower than the unit allows for.
      have hsmall : size code < ((2 : ℕ) : ℚ) ^ (-1022 : ℤ) := by
        have hq : exponent code = -1074 := if_pos hsub
        have hlt' : (mantissa code : ℚ) < 2 ^ (52 : ℤ) := by
          have hmant : mantissa code < 2 ^ 52 := by rw [mantissa, if_pos hsub]; exact hlt
          exact_mod_cast hmant
        have hpow : (0 : ℚ) < 2 ^ (-1074 : ℤ) := zpow_pos (by norm_num) _
        rw [size, hq, Nat.cast_ofNat, show (-1022 : ℤ) = 52 + -1074 by norm_num,
          zpow_add₀ (by norm_num : (2 : ℚ) ≠ 0)]
        exact mul_lt_mul_of_pos_right hlt' hpow
      have hpos : 0 < size code := mul_pos (by exact_mod_cast hm) (zpow_pos (by norm_num) _)
      have hlog := (Int.lt_zpow_iff_log_lt (by decide) hpos).1 hsmall
      rw [quantum, exponent, if_pos hsub]
      omega
    · have hmant : mantissa code = fractions + code % fractions := if_neg hsub
      have hlow : (2 : ℚ) ^ (52 : ℤ) ≤ mantissa code := by
        have : 2 ^ 52 ≤ mantissa code := hmant ▸ Nat.le_add_right _ _
        exact_mod_cast this
      have hhigh : (mantissa code : ℚ) < 2 ^ (52 + 1 : ℤ) := by
        have : mantissa code < 2 ^ 53 := by
          rw [hmant]
          exact Nat.lt_of_lt_of_eq (Nat.add_lt_add_left hlt _) (by decide)
        exact_mod_cast this
      have hdiv := Nat.pos_of_ne_zero hsub
      rw [quantum, size, log_mul_zpow hlow hhigh, exponent, if_neg hsub]
      generalize code / fractions = n at hdiv
      omega
  have hsize : size code = mantissa code * 2 ^ exponent code := rfl
  rw [nearest_of_quantum hsize hm hquantum]
  have hcode : (exponent code + 1074).toNat * fractions + mantissa code = code := by
    by_cases hsub : code / fractions = 0
    · have hexp : ((-1074 : ℤ) + 1074).toNat = 0 := rfl
      rw [hsub, Nat.mul_zero, Nat.zero_add] at hsplit
      rw [exponent, mantissa, if_pos hsub, if_pos hsub, hexp, Nat.zero_mul, Nat.zero_add, hsplit]
    · rw [exponent, mantissa, if_neg hsub, if_neg hsub]
      have hexp : ((code / fractions : ℕ) - 1075 + 1074 : ℤ).toNat = code / fractions - 1 := by omega
      rw [hexp, Nat.sub_mul, Nat.mul_comm (code / fractions)]
      have hle : fractions ≤ fractions * (code / fractions) :=
        Nat.le_mul_of_pos_right _ (Nat.pos_of_ne_zero hsub)
      omega
  rw [hcode]
  omega

/-- What is large is nearest to infinity. -/
theorem nearest_of_large {r : ℚ} (h : (2 : ℚ) ^ (1024 : ℤ) ≤ r) : nearest r = infinityCode := by
  have hr : 0 < r := lt_of_lt_of_le (zpow_pos (by norm_num) _) h
  have hlog : 1024 ≤ Int.log 2 r := (Int.zpow_le_iff_le_log (by decide) hr).1 (by exact_mod_cast h)
  have hq : quantum r = Int.log 2 r - 52 := by
    rw [quantum]
    omega
  have hpow : (0 : ℚ) < 2 ^ quantum r := zpow_pos (by norm_num) _
  have hfloor : 2 ^ 52 ≤ roundEven (r / 2 ^ quantum r) := by
    refine le_trans (Nat.le_floor ?_) (floor_le_roundEven _)
    rw [le_div_iff₀ hpow]
    calc ((2 ^ 52 : ℕ) : ℚ) * 2 ^ quantum r = 2 ^ Int.log 2 r := by
          rw [hq, Nat.cast_pow, Nat.cast_ofNat, ← zpow_natCast, ← zpow_add₀ (by norm_num : (2 : ℚ) ≠ 0)]
          congr 1
          omega
      _ ≤ r := by exact_mod_cast Int.zpow_log_le_self (by decide : 1 < 2) hr
  have hexp : 2046 ≤ (quantum r + 1074).toNat := by omega
  have hmul : 2046 * fractions ≤ (quantum r + 1074).toNat * fractions := Nat.mul_le_mul_right _ hexp
  have htotal : infinityCode ≤ (quantum r + 1074).toNat * fractions + roundEven (r / 2 ^ quantum r) :=
    le_trans (by decide) (Nat.add_le_add hmul hfloor)
  rw [nearest, if_neg hr.ne']
  exact Nat.min_eq_left htotal

/-- What is small is nearest to zero. -/
theorem nearest_of_small {r : ℚ} (h₀ : 0 < r) (h : r < (2 : ℚ) ^ (-1075 : ℤ)) : nearest r = 0 := by
  have hlog : Int.log 2 r < -1075 := (Int.lt_zpow_iff_log_lt (by decide) h₀).1 (by exact_mod_cast h)
  have hq : quantum r = -1074 := by
    rw [quantum]
    omega
  have hpow : (0 : ℚ) < 2 ^ (-1074 : ℤ) := zpow_pos (by norm_num) _
  have hround : roundEven (r / 2 ^ quantum r) = 0 := by
    refine roundEven_of_lt_half ?_
    rw [hq, ← mul_div_assoc, div_lt_one hpow]
    calc 2 * r < 2 * 2 ^ (-1075 : ℤ) := mul_lt_mul_of_pos_left h (by norm_num)
      _ = 2 ^ (-1074 : ℤ) := by
          rw [show (-1074 : ℤ) = 1 + -1075 by norm_num, zpow_add₀ (by norm_num : (2 : ℚ) ≠ 0), zpow_one]
  rw [nearest, if_neg h₀.ne', hround, hq]
  decide

/-! ### Decimals -/

theorem decimalLength_bounds {n : ℕ} (h : n ≠ 0) :
    (10 : ℚ) ^ ((decimalLength n : ℤ) - 1) ≤ n ∧ (n : ℚ) < 10 ^ (decimalLength n : ℤ) := by
  obtain ⟨k, hk⟩ : ∃ k, decimalLength n = k + 1 :=
    Nat.exists_eq_add_one.2 (Nat.length_toDigits_pos)
  have hle : n < 10 ^ (k + 1) :=
    (Nat.length_toDigits_le_iff (by decide) (Nat.succ_pos k)).1 (Nat.le_of_eq hk)
  have hge : 10 ^ k ≤ n := by
    by_contra hlt
    cases k with
    | zero => omega
    | succ k =>
      have hshort : decimalLength n ≤ k + 1 :=
        (Nat.length_toDigits_le_iff (by decide) (Nat.succ_pos k)).2 (Nat.lt_of_not_le hlt)
      omega
  rw [hk]
  constructor
  · rw [Nat.cast_add_one, add_sub_cancel_right, zpow_natCast]
    exact_mod_cast hge
  · rw [zpow_natCast]
    exact_mod_cast hle

private theorem two_pow_le_ten_pow : (2 : ℚ) ^ (1024 : ℤ) ≤ 10 ^ (310 : ℤ) := by
  have h : (2 : ℕ) ^ 1024 ≤ 10 ^ 310 := by decide +kernel
  have h' : (2 : ℚ) ^ (1024 : ℕ) ≤ 10 ^ (310 : ℕ) := by exact_mod_cast h
  exact_mod_cast h'

private theorem ten_pow_lt_two_pow : (10 : ℚ) ^ (-330 : ℤ) < 2 ^ (-1075 : ℤ) := by
  have h : (2 : ℕ) ^ 1075 < 10 ^ 330 := by decide +kernel
  have h' : (2 : ℚ) ^ (1075 : ℕ) < 10 ^ (330 : ℕ) := by exact_mod_cast h
  rw [zpow_neg, zpow_neg]
  exact inv_strictAnti₀ (zpow_pos (by norm_num) _) (by exact_mod_cast h')

/-- Reading a decimal is rounding it; the guards for far exponents decide nothing. -/
theorem ofDecimal_eq (negative : Bool) {digits : ℕ} (h : digits ≠ 0) (e : ℤ) :
    ofDecimal negative digits e = ofCode negative (nearest (digits * 10 ^ e)) := by
  have ten : (10 : ℚ) ≠ 0 := by norm_num
  have hpow : (0 : ℚ) < 10 ^ e := zpow_pos (by norm_num) e
  obtain ⟨hlow, hhigh⟩ := decimalLength_bounds h
  have hpos : (0 : ℚ) < digits * 10 ^ e :=
    mul_pos (by exact_mod_cast Nat.pos_of_ne_zero h) hpow
  rw [ofDecimal, if_neg h]
  simp only
  split
  · rename_i hsize
    have hlarge : (2 : ℚ) ^ (1024 : ℤ) ≤ digits * 10 ^ e := by
      calc (2 : ℚ) ^ (1024 : ℤ) ≤ 10 ^ (310 : ℤ) := two_pow_le_ten_pow
        _ ≤ 10 ^ ((decimalLength digits : ℤ) - 1 + e) := zpow_le_zpow_right₀ (by norm_num) (by omega)
        _ = 10 ^ ((decimalLength digits : ℤ) - 1) * 10 ^ e := zpow_add₀ ten _ _
        _ ≤ digits * 10 ^ e := mul_le_mul_of_nonneg_right hlow hpow.le
    rw [nearest_of_large hlarge]
    rfl
  split
  · rename_i hsize
    have hsmall : (digits : ℚ) * 10 ^ e < 2 ^ (-1075 : ℤ) := by
      calc (digits : ℚ) * 10 ^ e < 10 ^ (decimalLength digits : ℤ) * 10 ^ e :=
            mul_lt_mul_of_pos_right hhigh hpow
        _ = 10 ^ ((decimalLength digits : ℤ) + e) := (zpow_add₀ ten _ _).symm
        _ ≤ 10 ^ (-330 : ℤ) := zpow_le_zpow_right₀ (by norm_num) (by omega)
        _ < 2 ^ (-1075 : ℤ) := ten_pow_lt_two_pow
    rw [nearest_of_small hpos hsmall]
  · have hratio := scaled_ratio (by decide : 0 < 10) digits e
    have hden := scaled_den_pos (by decide : 0 < 10) digits e
    rw [nearestCode_eq _ hden, hratio]
    rfl

end Clausal.Binary64
