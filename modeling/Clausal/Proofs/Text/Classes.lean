import Clausal.Text.Class
import Mathlib.Tactic.Common

/-!
# How the classes of characters divide text

What scanning knows about the classes: no word begins with a blank, a digit or a quote, and every digit may
go on with a word. The tables are only looked at here, at the few blank characters.
-/

namespace Clausal.Text

def blankCodes : List Nat :=
  [0x9, 0xa, 0xb, 0xc, 0xd, 0x20, 0x85, 0xa0, 0x1680, 0x2000, 0x2001, 0x2002, 0x2003, 0x2004, 0x2005, 0x2006,
   0x2007, 0x2008, 0x2009, 0x200a, 0x2028, 0x2029, 0x202f, 0x205f, 0x3000]

private theorem mem_blankCodes {c : Char} (h : isBlank c = true) : c.toNat ∈ blankCodes := by
  rw [isBlank, inRanges_iff] at h
  obtain ⟨r, hr, hlow, hhigh⟩ := h
  simp only [blankRanges, List.mem_cons, List.not_mem_nil, or_false] at hr
  simp only [blankCodes, List.mem_cons, List.not_mem_nil, or_false]
  rcases hr with rfl | rfl | rfl | rfl | rfl | rfl | rfl | rfl | rfl | rfl <;> simp only at hlow hhigh <;> omega

private theorem not_wordStart_of_mem_blankCodes :
    ∀ n ∈ blankCodes, isWordStart (Char.ofNat n) = false ∧ (Char.ofNat n).isDigit = false := by
  decide +kernel

theorem isBlank_of_isWordStart {c : Char} (h : isWordStart c = true) : isBlank c = false := by
  by_contra hb
  have hmem := mem_blankCodes (by simpa using hb)
  have hcode := (not_wordStart_of_mem_blankCodes _ hmem).1
  rw [Char.ofNat_toNat, h] at hcode
  exact Bool.noConfusion hcode

theorem isBlank_of_isDigit {c : Char} (h : c.isDigit = true) : isBlank c = false := by
  by_contra hb
  have hmem := mem_blankCodes (by simpa using hb)
  have hcode := (not_wordStart_of_mem_blankCodes _ hmem).2
  rw [Char.ofNat_toNat, h] at hcode
  exact Bool.noConfusion hcode

theorem isWordChar_of_isDigit {c : Char} (h : c.isDigit = true) : isWordChar c = true := by
  have hlt : c.val < 128 := Nat.lt_of_le_of_lt (Char.isDigit_iff_toNat.1 h).2 (by decide)
  simp [isWordChar, isAlphanumeric, isNumeric, hlt, h]

private theorem not_wordChar_of_mem_blankCodes : ∀ n ∈ blankCodes, isWordChar (Char.ofNat n) = false := by
  decide +kernel

theorem isWordChar_of_isBlank {c : Char} (h : isBlank c = true) : isWordChar c = false := by
  have hcode := not_wordChar_of_mem_blankCodes _ (mem_blankCodes h)
  rwa [Char.ofNat_toNat] at hcode

theorem isDigit_of_isBlank {c : Char} (h : isBlank c = true) : c.isDigit = false := by
  have hcode := (not_wordStart_of_mem_blankCodes _ (mem_blankCodes h)).2
  rwa [Char.ofNat_toNat] at hcode

private theorem isAlpha_lower {c : Char} (h : c.isAlpha = true) : 65 ≤ c.toNat := by
  delta Char.isAlpha Char.isUpper Char.isLower at h
  simp only [Bool.or_eq_true, Bool.and_eq_true, decide_eq_true_eq, ge_iff_le, UInt32.le_iff_toNat_le] at h
  have hcode : c.toNat = c.val.toNat := rfl
  have hA : 'A'.val.toNat = 65 := rfl
  have ha : 'a'.val.toNat = 97 := rfl
  omega

theorem isDigit_of_isWordStart {c : Char} (h : isWordStart c = true) : c.isDigit = false := by
  by_contra hd
  obtain ⟨-, hhigh⟩ := Char.isDigit_iff_toNat.1 (by simpa using hd : c.isDigit = true)
  have hlt : c.val < 128 := Nat.lt_of_le_of_lt hhigh (by decide)
  simp only [isWordStart, isAlphabetic, hlt, if_true, Bool.or_eq_true, beq_iff_eq] at h
  rcases h with h | rfl
  · exact absurd (Nat.le_trans (isAlpha_lower h) hhigh) (by decide)
  · exact absurd hhigh (by decide)

theorem ne_of_isWordStart {c d : Char} (h : isWordStart c = true) (hd : isWordStart d = false) : c ≠ d := by
  rintro rfl
  rw [h] at hd
  exact Bool.noConfusion hd

theorem ne_of_isWordChar {c d : Char} (h : isWordChar c = true) (hd : isWordChar d = false) : c ≠ d := by
  rintro rfl
  rw [h] at hd
  exact Bool.noConfusion hd

end Clausal.Text
