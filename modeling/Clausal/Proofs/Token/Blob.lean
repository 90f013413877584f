import Clausal.Proofs.Text.Quoted
import Clausal.Proofs.Token.Tiling

/-!
# Byte strings in texts

A byte string that a quote closes stands for bytes exactly if its body is made of pairs, one for each byte. A pair is
two hexadecimal digits, but a plus sign also counts as the first half of a pair. Every other byte string is a
malformed token, which tells whether no quote closes it or its body has an odd number of bytes.
-/

namespace Clausal

namespace Text

/-- Two hexadecimal digits spell the byte. -/
def IsDigitPair (high low : Char) (b : UInt8) : Prop :=
  ∃ h l, hexDigit? high = some h ∧ hexDigit? low = some l ∧ b.toNat = 16 * h + l

/-- A plus sign and one hexadecimal digit spell the byte. -/
def IsSignedPair (high low : Char) (b : UInt8) : Prop := high = '+' ∧ hexDigit? low = some b.toNat

/-- A pair as it is read. -/
def IsPair (high low : Char) (b : UInt8) : Prop := IsDigitPair high low b ∨ IsSignedPair high low b

/-- Successive pairs spell the bytes. -/
inductive PairsOf (spells : Char → Char → UInt8 → Prop) : List Char → List UInt8 → Prop where
  | nil : PairsOf spells [] []
  | cons {high low : Char} {b : UInt8} {cs : List Char} {bs : List UInt8} (hpair : spells high low b)
    (hrest : PairsOf spells cs bs) : PairsOf spells (high :: low :: cs) (b :: bs)

/-! ### Digits -/

theorem hexDigit_lt {c : Char} {n : Nat} (h : hexDigit? c = some n) : n < 16 := by
  unfold hexDigit? at h
  split at h
  · rename_i hc
    obtain rfl := Option.some.inj h
    have hle : c.toNat ≤ '9'.toNat := hc.2
    have hnine : '9'.toNat - '0'.toNat = 9 := rfl
    omega
  split at h
  · rename_i hc
    obtain rfl := Option.some.inj h
    have hle : c.toNat ≤ 'f'.toNat := hc.2
    have hf : 'f'.toNat - 'a'.toNat = 5 := rfl
    omega
  split at h
  · rename_i hc
    obtain rfl := Option.some.inj h
    have hle : c.toNat ≤ 'F'.toNat := hc.2
    have hf : 'F'.toNat - 'A'.toNat = 5 := rfl
    omega
  · cases h

/-- A hexadecimal digit is no quote, and takes up one byte. -/
theorem hexDigit_char {c : Char} {n : Nat} (h : hexDigit? c = some n) : c ≠ '\'' ∧ c.utf8Size = 1 := by
  have hquote : c ≠ '\'' := by
    rintro rfl
    cases h
  refine ⟨hquote, Char.utf8Size_eq_one_iff.2 ?_⟩
  unfold hexDigit? at h
  split at h
  · rename_i hc
    exact Nat.le_trans hc.2 (by decide)
  split at h
  · rename_i hc
    exact Nat.le_trans hc.2 (by decide)
  split at h
  · rename_i hc
    exact Nat.le_trans hc.2 (by decide)
  · cases h

/-! ### Pairs -/

theorem byteOfPair_eq_some {high low : Char} {b : UInt8} : byteOfPair? high low = some b ↔ IsPair high low b := by
  have hplus : hexDigit? '+' = none := by decide
  constructor
  · intro h
    unfold byteOfPair? at h
    cases hlow : hexDigit? low with
    | none =>
      rw [hlow] at h
      cases h
    | some l =>
      have hl := hexDigit_lt hlow
      rw [hlow, Option.bind_eq_bind, Option.bind_some] at h
      split at h
      · obtain rfl := Option.some.inj h
        rename_i hhigh
        refine .inr ⟨hhigh, ?_⟩
        rw [hlow, UInt8.toNat_ofNat_of_lt' (Nat.lt_trans hl (by decide))]
      · cases hhigh : hexDigit? high with
        | none =>
          rw [hhigh] at h
          cases h
        | some n =>
          have hn := hexDigit_lt hhigh
          rw [hhigh, Option.bind_some] at h
          obtain rfl := Option.some.inj h
          exact .inl ⟨n, l, hhigh, hlow, UInt8.toNat_ofNat_of_lt' (show 16 * n + l < 256 by omega)⟩
  · rintro (⟨n, l, hhigh, hlow, hb⟩ | ⟨rfl, hlow⟩)
    · have hne : high ≠ '+' := by
        rintro rfl
        rw [hplus] at hhigh
        cases hhigh
      simp only [byteOfPair?, hhigh, hlow, hne, if_false, Option.bind_eq_bind, Option.bind_some, ← hb,
        UInt8.ofNat_toNat]
      rfl
    · simp only [byteOfPair?, hlow, if_true, Option.bind_eq_bind, Option.bind_some, UInt8.ofNat_toNat]
      rfl

theorem IsPair.chars {high low : Char} {b : UInt8} (h : IsPair high low b) :
    (high ≠ '\'' ∧ high.utf8Size = 1) ∧ low ≠ '\'' ∧ low.utf8Size = 1 := by
  rcases h with ⟨n, l, hhigh, hlow, -⟩ | ⟨rfl, hlow⟩
  · exact ⟨hexDigit_char hhigh, hexDigit_char hlow⟩
  · exact ⟨by decide, hexDigit_char hlow⟩

theorem bytesOfPairs_eq_some {cs : List Char} {bs : List UInt8} : bytesOfPairs? cs = some bs ↔ PairsOf IsPair cs bs := by
  constructor
  · intro h
    fun_induction bytesOfPairs? cs generalizing bs with
    | case1 =>
      obtain rfl := Option.some.inj h
      exact .nil
    | case2 => cases h
    | case3 high low rest ih =>
      obtain ⟨b, hb, h⟩ := Option.bind_eq_some_iff.1 h
      obtain ⟨more, hmore, h⟩ := Option.bind_eq_some_iff.1 h
      obtain rfl := Option.some.inj h
      exact .cons (byteOfPair_eq_some.1 hb) (ih hmore)
  · intro h
    induction h with
    | nil => rfl
    | cons hpair hrest ih =>
      rw [bytesOfPairs?, byteOfPair_eq_some.2 hpair, ih]
      rfl

namespace PairsOf

variable {cs : List Char} {bs : List UInt8} (h : PairsOf IsPair cs bs)

include h

theorem width_eq : width cs = 2 * bs.length := by
  induction h with
  | nil => rfl
  | cons hpair hrest ih =>
    obtain ⟨⟨-, hhigh⟩, -, hlow⟩ := hpair.chars
    rw [width_cons, width_cons, ih, hhigh, hlow, List.length_cons]
    omega

/-- A body of pairs has no quotes, so it stands in the text as it is. -/
theorem encode_eq : Quoted.encode '\'' cs = cs := by
  induction h with
  | nil => rfl
  | cons hpair hrest ih =>
    obtain ⟨⟨hhigh, -⟩, hlow, -⟩ := hpair.chars
    rw [Quoted.encode, if_neg hhigh, Quoted.encode, if_neg hlow, ih]

end PairsOf

end Text

namespace Token

open Text

/-- What a byte string stands for that has `after` behind its first quote. -/
structure ReadsBlob (after : List Char) (k : Kind) : Prop where
  /-- It stands for bytes if its body is made of pairs up to a closing quote, and only then. -/
  blob_iff : ∀ bytes, k = .blob bytes ↔
    ∃ body rest, after = body ++ '\'' :: rest ∧ rest.head? ≠ some '\'' ∧ PairsOf IsPair body bytes
  open_iff : k = .malformed .openBlob ↔ ¬ ∃ body rest, Quoted.Closes '\'' after body rest
  odd_iff : k = .malformed .oddBlob ↔ ∃ body rest, Quoted.Closes '\'' after body rest ∧ width body % 2 = 1
  otherwise : (∃ bytes, k = .blob bytes) ∨ ∃ fault ∈ [Fault.openBlob, .oddBlob, .badBlob], k = .malformed fault

theorem closes_of_pairsOf {after body rest : List Char} {bytes : List UInt8} (hwhole : after = body ++ '\'' :: rest)
    (hsingle : rest.head? ≠ some '\'') (h : PairsOf IsPair body bytes) : Quoted.Closes '\'' after body rest :=
  ⟨by rw [h.encode_eq, hwhole], hsingle⟩

private theorem readsBlob_of_isOpen {after : List Char} (h : Quoted.IsOpen '\'' after) :
    ReadsBlob after (.malformed .openBlob) where
  blob_iff bytes := by
    refine iff_of_false Kind.noConfusion ?_
    rintro ⟨body, rest, hwhole, hsingle, hpairs⟩
    exact (closes_of_pairsOf hwhole hsingle hpairs).not_isOpen h
  open_iff := iff_of_true rfl fun ⟨_, _, hcloses⟩ => hcloses.not_isOpen h
  odd_iff := iff_of_false (by simp) fun ⟨_, _, hcloses, _⟩ => hcloses.not_isOpen h
  otherwise := .inr ⟨.openBlob, by decide, rfl⟩

private theorem readsBlob_of_closes {after s rest : List Char} (h : Quoted.Closes '\'' after s rest) :
    ReadsBlob after (if width s % 2 ≠ 0 then .malformed .oddBlob
      else match bytesOfPairs? s with
        | some bytes => .blob bytes
        | none => .malformed .badBlob) := by
  have hblob : ∀ bytes, (∃ body rest, after = body ++ '\'' :: rest ∧ rest.head? ≠ some '\'' ∧
      PairsOf IsPair body bytes) ↔ PairsOf IsPair s bytes := by
    intro bytes
    constructor
    · rintro ⟨body, rest', hwhole, hsingle, hpairs⟩
      rwa [h.eq (closes_of_pairsOf hwhole hsingle hpairs) |>.1]
    · intro hpairs
      refine ⟨s, rest, ?_, h.single, hpairs⟩
      rw [h.whole, hpairs.encode_eq]
  have hodd : (∃ body rest, Quoted.Closes '\'' after body rest ∧ width body % 2 = 1) ↔ width s % 2 = 1 := by
    constructor
    · rintro ⟨body, rest', hcloses, hwidth⟩
      rwa [(h.eq hcloses).1]
    · exact fun hwidth => ⟨s, rest, h, hwidth⟩
  have hclosed : ∃ body rest, Quoted.Closes '\'' after body rest := ⟨s, rest, h⟩
  split
  · rename_i hwidth
    refine ⟨fun bytes => iff_of_false (by simp) fun hbody => ?_, by simp [hclosed],
      iff_of_true rfl (hodd.2 (by omega)), .inr ⟨.oddBlob, by decide, rfl⟩⟩
    have heven := ((hblob bytes).1 hbody).width_eq
    omega
  · rename_i hwidth
    have heven : ¬ ∃ body rest, Quoted.Closes '\'' after body rest ∧ width body % 2 = 1 := by
      rw [hodd]
      omega
    split
    · rename_i bytes hbytes
      refine ⟨fun bytes' => ?_, by simp [hclosed], iff_of_false (by simp) heven, .inl ⟨bytes, rfl⟩⟩
      rw [hblob, ← bytesOfPairs_eq_some, hbytes, Option.some.injEq, Kind.blob.injEq]
    · rename_i hbytes
      refine ⟨fun bytes => ?_, by simp [hclosed], iff_of_false (by simp) heven, .inr ⟨.badBlob, by decide, rfl⟩⟩
      rw [hblob, ← bytesOfPairs_eq_some, hbytes]
      exact iff_of_false (by simp) (by simp)

theorem readsBlob_classify {c : Char} (hc : c = 'x' ∨ c = 'X') (after : List Char) :
    ReadsBlob after (classify c (munch c ('\'' :: after)).1) := by
  have hbegins : c ≠ '\'' ∧ c ≠ '"' ∧ ∀ cs, opensBlob c ('\'' :: cs) = true := by
    rcases hc with rfl | rfl <;> exact ⟨by decide, by decide, fun _ => rfl⟩
  obtain ⟨hsingle, hdouble, hopens⟩ := hbegins
  have hmunch : (munch c ('\'' :: after)).1 = '\'' :: (Quoted.untilClosing '\'' after).1 := by
    simp [munch, hsingle, hdouble, hopens]
  have hclass : classify c (munch c ('\'' :: after)).1 = classifyBlob (Quoted.untilClosing '\'' after).1 := by
    rw [hmunch, classify, if_neg hsingle, if_neg hdouble, if_pos (hopens _), List.drop_succ_cons, List.drop_zero]
  rw [hclass]
  rcases Quoted.closes_or_isOpen '\'' after with ⟨s, rest, hcloses⟩ | hopen
  · have hread := readsBlob_of_closes hcloses
    rwa [classifyBlob, hcloses.decode_eq]
  · have hkind : classifyBlob (Quoted.untilClosing '\'' after).1 = .malformed .openBlob := by
      rw [classifyBlob, hopen.toEnd, hopen.undecoded]
    rw [hkind]
    exact readsBlob_of_isOpen hopen

/-- A byte string of a text is read as the bytes that its pairs spell, or as a malformed token. -/
theorem readsBlob_of_mem_scan {text : String} {t : Token} {c : Char} {after : List Char} (ht : t ∈ scan text)
    (hc : c = 'x' ∨ c = 'X') (htext : GoesOn text t.span.start (c :: '\'' :: after)) : ReadsBlob after t.kind := by
  rw [kind_of_goesOn ht htext]
  exact readsBlob_classify hc after

private def blobText : String := "x'CAfe00', X'é', x''"

theorem readsBlob_cafe : ∃ t ∈ scan blobText, t.span.start = 0 ∧ ReadsBlob ("CAfe00', X'é', x''".toList) t.kind ∧
    t.kind = .blob [0xCA, 0xFE, 0] := by
  refine ⟨⟨.blob [0xCA, 0xFE, 0], ⟨0, 9⟩⟩, by decide +kernel, rfl, ?_, rfl⟩
  exact readsBlob_of_mem_scan (by decide +kernel) (.inl rfl) (goesOn_start blobText)

private def signedText : String := "X'+1'"

/-- A plus sign is no hexadecimal digit, but a byte string may have it. -/
theorem exists_blob_not_digits : ∃ t ∈ scan signedText, GoesOn signedText t.span.start "X'+1'".toList ∧
    t.kind = .blob [1] ∧
      ¬ ∃ body rest, "+1'".toList = body ++ '\'' :: rest ∧ rest.head? ≠ some '\'' ∧ PairsOf IsDigitPair body [1] := by
  refine ⟨⟨.blob [1], ⟨0, 5⟩⟩, by decide +kernel, goesOn_start signedText, rfl, ?_⟩
  rintro ⟨body, rest, hwhole, -, hpairs⟩
  cases hpairs with
  | cons hpair hrest =>
    obtain ⟨n, l, hhigh, -⟩ := hpair
    obtain ⟨rfl, -⟩ := List.cons.inj hwhole
    cases hhigh

end Token

end Clausal
