import Clausal.Text.Hex
import Clausal.Text.Offset
import Clausal.Text.Quoted
import Mathlib.Tactic.Common

/-!
# Bytes as pairs of digits

The pairs that are written for bytes are read back as those bytes. They are capital hexadecimal digits only, so
quoting leaves them alone, and they take up two bytes of text each.
-/

namespace Clausal.Text

private theorem hexDigit_facts : ∀ n < 16, hexDigit? (hexDigit n) = some n ∧ hexDigit n ≠ '+' ∧
    hexDigit n ≠ '\'' ∧ (hexDigit n).utf8Size = 1 := by
  decide

private theorem byte_halves (b : UInt8) : b.toNat / 16 < 16 ∧ b.toNat % 16 < 16 := by
  have hb : b.toNat < 256 := b.toNat_lt_size
  omega

theorem byteOfPair_pairOfByte (b : UInt8) :
    byteOfPair? (hexDigit (b.toNat / 16)) (hexDigit (b.toNat % 16)) = some b := by
  obtain ⟨hhigh, hlow⟩ := byte_halves b
  obtain ⟨hread, hplus, -⟩ := hexDigit_facts _ hhigh
  obtain ⟨hread', -⟩ := hexDigit_facts _ hlow
  have hsum : 16 * (b.toNat / 16) + b.toNat % 16 = b.toNat := Nat.div_add_mod _ _
  have hbyte : byteOfPair? (hexDigit (b.toNat / 16)) (hexDigit (b.toNat % 16))
      = some (UInt8.ofNat (16 * (b.toNat / 16) + b.toNat % 16)) := by
    simp only [byteOfPair?, hread, hread', hplus, Option.bind_eq_bind, Option.bind_some, if_false]
    rfl
  rw [hbyte, hsum, UInt8.ofNat_toNat]

theorem bytesOfPairs_pairsOfBytes (bs : List UInt8) : bytesOfPairs? (pairsOfBytes bs) = some bs := by
  induction bs with
  | nil => rfl
  | cons b bs ih =>
    have hpairs : pairsOfBytes (b :: bs)
        = hexDigit (b.toNat / 16) :: hexDigit (b.toNat % 16) :: pairsOfBytes bs := rfl
    rw [hpairs, bytesOfPairs?, byteOfPair_pairOfByte, ih]
    rfl

private theorem mem_pairsOfBytes {bs : List UInt8} {c : Char} (h : c ∈ pairsOfBytes bs) :
    ∃ n < 16, c = hexDigit n := by
  obtain ⟨b, -, hc⟩ := List.mem_flatMap.1 h
  obtain ⟨hhigh, hlow⟩ := byte_halves b
  rcases List.mem_cons.1 hc with rfl | hc
  · exact ⟨_, hhigh, rfl⟩
  · obtain rfl := List.mem_singleton.1 hc
    exact ⟨_, hlow, rfl⟩

theorem width_pairsOfBytes (bs : List UInt8) : width (pairsOfBytes bs) = 2 * bs.length := by
  induction bs with
  | nil => rfl
  | cons b bs ih =>
    have hpairs : pairsOfBytes (b :: bs)
        = hexDigit (b.toNat / 16) :: hexDigit (b.toNat % 16) :: pairsOfBytes bs := rfl
    obtain ⟨hhigh, hlow⟩ := byte_halves b
    rw [hpairs, width_cons, width_cons, ih, (hexDigit_facts _ hhigh).2.2.2, (hexDigit_facts _ hlow).2.2.2,
      List.length_cons]
    omega

/-- Text without the quote is written as it is. -/
theorem Quoted.encode_eq_self {quote : Char} {cs : List Char} (h : ∀ c ∈ cs, c ≠ quote) :
    Quoted.encode quote cs = cs := by
  induction cs with
  | nil => rfl
  | cons c cs ih =>
    rw [Quoted.encode, if_neg (h c (by simp)), ih fun d hd => h d (by simp [hd])]

theorem encode_pairsOfBytes (bs : List UInt8) : Quoted.encode '\'' (pairsOfBytes bs) = pairsOfBytes bs := by
  apply Quoted.encode_eq_self
  intro c hc
  obtain ⟨n, hn, rfl⟩ := mem_pairsOfBytes hc
  exact (hexDigit_facts n hn).2.2.1

end Clausal.Text
