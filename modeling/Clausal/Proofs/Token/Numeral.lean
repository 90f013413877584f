import Clausal.Proofs.Token.Lexemes

/-!
# Numerals read back

A numeral is a run of digits, a fraction or none, and an exponent or none. A numeral with something apart after
it is read whole, and what it stands for is computed from its three parts. Whole numbers, placeholders and byte
strings are special cases of the same kind: a first character and a run that ends by itself.
-/

namespace Clausal.Token

open Text

/-- The text of a fraction, which may be missing. -/
inductive IsFraction : List Char → Prop where
  | none : IsFraction []
  | places (d : Char) (ds : List Char) (h : ∀ c ∈ d :: ds, c.isDigit = true) : IsFraction ('.' :: d :: ds)

/-- The text of an exponent, which may be missing. -/
inductive IsExponent : List Char → Prop where
  | none : IsExponent []
  | power (sign ds : List Char) (hsign : sign = [] ∨ sign = ['-']) (hne : ds ≠ [])
      (h : ∀ c ∈ ds, c.isDigit = true) : IsExponent ('e' :: (sign ++ ds))

/-- What does not begin with a digit. -/
private def Undigited (rest : List Char) : Prop := ∀ c, rest.head? = some c → c.isDigit = false

private theorem Apart.undigited {rest : List Char} (h : Apart rest) : Undigited rest := by
  intro c hc
  by_contra hd
  have hword := isWordChar_of_isDigit (by simpa using hd)
  rw [(h c hc).1] at hword
  exact Bool.noConfusion hword

/-- What may follow a numeral without changing it. -/
def Ended (rest : List Char) : Prop :=
  ∀ c, rest.head? = some c → c.isDigit = false ∧ c ≠ '.' ∧ c ≠ 'e' ∧ c ≠ 'E'

theorem Ended.nil : Ended [] := nofun

private theorem Ended.undigited {rest : List Char} (h : Ended rest) : Undigited rest := fun c hc => (h c hc).1

theorem Apart.ended {rest : List Char} (h : Apart rest) : Ended rest := fun c hc => by
  obtain ⟨hword, -, -, hdot⟩ := h c hc
  refine ⟨h.undigited c hc, hdot, ?_, ?_⟩ <;> rintro rfl <;> exact absurd hword (by decide)

private theorem IsExponent.undigited {e rest : List Char} (he : IsExponent e) (hrest : Ended rest) :
    Undigited (e ++ rest) := by
  cases he with
  | none => exact hrest.undigited
  | power sign ds hsign hne h =>
    intro c hc
    obtain rfl : 'e' = c := by simpa using hc
    decide

private theorem splitFraction_parts {f e rest : List Char} (hf : IsFraction f) (he : IsExponent e)
    (hrest : Ended rest) : splitFraction (f ++ (e ++ rest)) = (f, e ++ rest) := by
  cases hf with
  | none =>
    cases he with
    | none =>
      cases rest with
      | nil => rfl
      | cons c rest =>
        have hdot : c ≠ '.' := (hrest c rfl).2.1
        simp only [List.nil_append]
        unfold splitFraction
        split
        · rename_i heq
          exact absurd (List.cons.inj heq).1 hdot
        · rfl
    | power sign ds hsign hne h => rfl
  | places d ds h =>
    have hd : d.isDigit = true := h d (by simp)
    have hds : ∀ c ∈ ds, c.isDigit = true := fun c hc => h c (by simp [hc])
    simp only [List.cons_append, splitFraction, hd, if_true, takeWhile_append_of_all hds (he.undigited hrest),
      dropWhile_append_of_all hds (he.undigited hrest)]

private theorem splitSign_digits {sign ds rest : List Char} (hsign : sign = [] ∨ sign = ['-']) (hne : ds ≠ [])
    (h : ∀ c ∈ ds, c.isDigit = true) : splitSign (sign ++ (ds ++ rest)) = (sign, ds ++ rest) := by
  rcases hsign with rfl | rfl
  · cases ds with
    | nil => exact absurd rfl hne
    | cons c ds =>
      have hc : c.isDigit = true := h c (by simp)
      have hplain : ¬ (c = '+' ∨ c = '-') := by
        rintro (rfl | rfl) <;> exact absurd hc (by decide)
      simp [splitSign, hplain]
  · simp [splitSign]

private theorem splitExponent_parts {e rest : List Char} (he : IsExponent e) (hrest : Ended rest) :
    splitExponent (e ++ rest) = (e, rest) := by
  cases he with
  | none =>
    cases rest with
    | nil => rfl
    | cons c rest =>
      have hplain : ¬ (c = 'e' ∨ c = 'E') := not_or.2 (hrest c rfl).2.2
      simp [splitExponent, hplain]
  | power sign ds hsign hne h =>
    simp [splitExponent, splitSign_digits hsign hne h, takeWhile_append_of_all h hrest.undigited,
      dropWhile_append_of_all h hrest.undigited]

private theorem IsFraction.undigited {f e rest : List Char} (hf : IsFraction f) (he : IsExponent e)
    (hrest : Ended rest) : Undigited (f ++ (e ++ rest)) := by
  cases hf with
  | none => exact he.undigited hrest
  | places d ds h =>
    intro c hc
    obtain rfl : '.' = c := by simpa using hc
    decide

/-- What a numeral with given parts stands for. -/
def numeralKind (whole fraction exponent : List Char) : Kind :=
  if fraction = [] ∧ exponent = [] then
    if decimal whole < UInt64.size then .integer (UInt64.ofNat (decimal whole))
    else .malformed (.bigInteger (String.ofList whole))
  else
    .float (Binary64.ofDecimal false (decimal (whole ++ fraction.drop 1))
      (((exponentValue? (exponent.drop 1)).getD 0) - (fraction.drop 1).length))

theorem exponentValue_digits {sign ds : List Char} (hsign : sign = [] ∨ sign = ['-']) (hne : ds ≠ [])
    (h : ∀ c ∈ ds, c.isDigit = true) :
    exponentValue? (sign ++ ds) = some (if sign = ['-'] then -(decimal ds : Int) else decimal ds) := by
  have hsplit : splitSign (sign ++ (ds ++ [])) = (sign, ds ++ []) := splitSign_digits hsign hne h
  rw [List.append_nil] at hsplit
  rw [exponentValue?, hsplit]
  simp only [List.isEmpty_iff, hne, if_false]
  split <;> rfl

theorem classifyNumber_parts {w f e : List Char} (hw : ∀ c ∈ w, c.isDigit = true) (hf : IsFraction f)
    (he : IsExponent e) : classifyNumber (w ++ (f ++ e)) = numeralKind w f e := by
  have hstop := hf.undigited he Ended.nil
  have hsplit := splitFraction_parts hf he Ended.nil
  rw [List.append_nil] at hstop hsplit
  rw [classifyNumber, takeWhile_append_of_all hw hstop, dropWhile_append_of_all hw hstop, hsplit, numeralKind]
  cases hf with
  | none =>
    cases he with
    | none => simp
    | power sign ds hsign hne h => simp [exponentValue_digits hsign hne h]
  | places d fs hfs =>
    cases he with
    | none => simp [exponentValue?, splitSign]
    | power sign ds hsign hne h => simp [exponentValue_digits hsign hne h]

private theorem opensBlob_digit {c : Char} (hc : c.isDigit = true) (cs : List Char) : opensBlob c cs = false := by
  have hx : c ≠ 'x' ∧ c ≠ 'X' := by
    constructor <;> rintro rfl <;> exact absurd hc (by decide)
  simp [opensBlob, hx]

/-- What begins with a digit is a number. -/
theorem classify_digit {c : Char} (hc : c.isDigit = true) (cs : List Char) :
    classify c cs = classifyNumber (c :: cs) := by
  have hword := isWordChar_of_isDigit hc
  have hsingle : c ≠ '\'' := ne_of_isWordChar hword (by decide)
  have hdouble : c ≠ '"' := ne_of_isWordChar hword (by decide)
  simp [classify, hsingle, hdouble, opensBlob_digit hc, hc]

/-- A numeral with an end after it is one token. -/
theorem oneToken_numeral {w f e rest : List Char} (hne : w ≠ []) (hw : ∀ c ∈ w, c.isDigit = true)
    (hf : IsFraction f) (he : IsExponent e) (hrest : Ended rest) :
    OneToken (w ++ (f ++ e)) (numeralKind w f e) rest := by
  obtain ⟨c, w', rfl⟩ := List.exists_cons_of_ne_nil hne
  have hc : c.isDigit = true := hw c (by simp)
  have hw' : ∀ d ∈ w', d.isDigit = true := fun d hd => hw d (by simp [hd])
  have hword := isWordChar_of_isDigit hc
  have hsingle : c ≠ '\'' := ne_of_isWordChar hword (by decide)
  have hdouble : c ≠ '"' := ne_of_isWordChar hword (by decide)
  have hminus : c ≠ '-' := ne_of_isWordChar hword (by decide)
  have hstop := hf.undigited he hrest
  have hsplit : splitNumber (w' ++ (f ++ (e ++ rest))) = (w' ++ (f ++ e), rest) := by
    rw [splitNumber, takeWhile_append_of_all hw' hstop, dropWhile_append_of_all hw' hstop,
      splitFraction_parts hf he hrest]
    simp only [splitExponent_parts he hrest, List.append_assoc]
  have hmunch : munch c (w' ++ (f ++ e) ++ rest) = (w' ++ (f ++ e), rest) := by
    rw [← hsplit]
    simp [munch, hsingle, hdouble, opensBlob_digit hc, hc]
  have hclass : classify c (w' ++ (f ++ e)) = numeralKind (c :: w') f e := by
    rw [← classifyNumber_parts hw hf he, classify_digit hc]
    rfl
  exact hclass ▸ .of_munch (isBlank_of_isDigit hc) hminus hmunch

/-- A numeral with something apart after it is one token. -/
theorem kinds_numeral {w f e rest : List Char} (hne : w ≠ []) (hw : ∀ c ∈ w, c.isDigit = true)
    (hf : IsFraction f) (he : IsExponent e) (hrest : Apart rest) :
    kinds (w ++ (f ++ (e ++ rest))) = numeralKind w f e :: kinds rest := by
  rw [← (oneToken_numeral hne hw hf he hrest.ended).kinds, List.append_assoc, List.append_assoc]

/-! ### Whole numbers -/

theorem toDigits_ne_nil (n : Nat) : Nat.toDigits 10 n ≠ [] := by
  have h := Nat.length_toDigits_pos (b := 10) (n := n)
  exact List.ne_nil_of_length_pos h

theorem isDigit_toDigits (n : Nat) : ∀ c ∈ Nat.toDigits 10 n, c.isDigit = true :=
  fun _ hc => Nat.isDigit_of_mem_toDigits (by decide) (by decide) hc

theorem decimal_toDigits (n : Nat) : decimal (Nat.toDigits 10 n) = n := Nat.ofDigitChars_ten_toDigits

theorem toList_toString (n : Nat) : (toString n).toList = Nat.toDigits 10 n := by
  rw [Nat.toString_eq_repr, Nat.repr_eq_ofList_toDigits, String.toList_ofList]

/-- What decimal digits stand for by themselves. -/
def wholeKind (ds : List Char) : Kind :=
  if decimal ds < UInt64.size then .integer (UInt64.ofNat (decimal ds)) else .malformed (.bigInteger (String.ofList ds))

theorem classifyNumber_digits {ds : List Char} (h : ∀ c ∈ ds, c.isDigit = true) : classifyNumber ds = wholeKind ds := by
  have hparts := classifyNumber_parts h .none .none
  rwa [List.append_nil, List.append_nil] at hparts

/-- Digits with something apart after them are one token. -/
theorem kinds_whole {ds rest : List Char} (hne : ds ≠ []) (hds : ∀ c ∈ ds, c.isDigit = true) (hrest : Apart rest) :
    kinds (ds ++ rest) = wholeKind ds :: kinds rest := by
  have h := kinds_numeral hne hds .none .none hrest
  rwa [List.nil_append, List.nil_append] at h

/-- The decimal digits of a number that fits are one token of this number. -/
theorem oneToken_integer (n : UInt64) {rest : List Char} (hrest : Ended rest) :
    OneToken (toString n.toNat).toList (.integer n) rest := by
  have hkind : numeralKind (Nat.toDigits 10 n.toNat) [] [] = .integer n := by
    rw [numeralKind, if_pos ⟨rfl, rfl⟩, decimal_toDigits, if_pos n.toNat_lt_size, UInt64.ofNat_toNat]
  have h := oneToken_numeral (toDigits_ne_nil n.toNat) (isDigit_toDigits n.toNat) .none .none hrest
  rwa [List.append_nil, List.append_nil, hkind, ← toList_toString] at h

theorem kinds_integer {n : Nat} (hn : n < UInt64.size) {rest : List Char} (hrest : Apart rest) :
    kinds ((toString n).toList ++ rest) = .integer (UInt64.ofNat n) :: kinds rest := by
  rw [toList_toString, kinds_whole (toDigits_ne_nil n) (isDigit_toDigits n) hrest, wholeKind, decimal_toDigits,
    if_pos hn]

/-! ### Placeholders -/

/-- What a question mark and decimal digits stand for. -/
def indexKind (ds : List Char) : Kind :=
  if decimal ds < UInt32.size then .positional (UInt32.ofNat (decimal ds)) else .malformed .missingIndex

theorem classify_index {ds : List Char} (hne : ds ≠ []) : classify '?' ds = indexKind ds := by
  have hempty : ds.isEmpty = false := List.isEmpty_eq_false_iff.2 hne
  have hclass : classify '?' ds = if UInt32.size ≤ decimal ds then .malformed .missingIndex
      else .positional (UInt32.ofNat (decimal ds)) := by
    simp [classify, opensBlob, isWordStart, isAlphabetic, hempty]
  rw [hclass, indexKind]
  by_cases hlt : decimal ds < UInt32.size
  · rw [if_pos hlt, if_neg (Nat.not_le.2 hlt)]
  · rw [if_neg hlt, if_pos (Nat.not_lt.1 hlt)]

/-- A question mark and digits with something apart after them are one token. -/
theorem kinds_index {ds rest : List Char} (hne : ds ≠ []) (hds : ∀ c ∈ ds, c.isDigit = true) (hrest : Apart rest) :
    kinds ('?' :: (ds ++ rest)) = indexKind ds :: kinds rest := by
  have hmunch : munch '?' (ds ++ rest) = (ds, rest) := by
    simp [munch, opensBlob, takeWhile_append_of_all hds hrest.undigited, dropWhile_append_of_all hds hrest.undigited,
      isWordStart, isAlphabetic]
  rw [kinds_lexeme (by decide) (fun h => absurd h (by decide)), hmunch, classify_index hne]

theorem kinds_positional (n : UInt32) {rest : List Char} (hrest : Apart rest) :
    kinds ('?' :: ((toString n.toNat).toList ++ rest)) = .positional n :: kinds rest := by
  rw [toList_toString, kinds_index (toDigits_ne_nil _) (isDigit_toDigits _) hrest, indexKind, decimal_toDigits,
    if_pos n.toNat_lt_size, UInt32.ofNat_toNat]

theorem kinds_named {name : String} (hname : name ≠ "") (hchars : ∀ c ∈ name.toList, isWordChar c = true)
    {rest : List Char} (hrest : Apart rest) :
    kinds (':' :: (name.toList ++ rest)) = .named name :: kinds rest := by
  have hstop : ∀ d, rest.head? = some d → isWordChar d = false := fun d hd => (hrest d hd).1
  have hmunch : munch ':' (name.toList ++ rest) = (name.toList, rest) := by
    simp [munch, opensBlob, takeWhile_append_of_all hchars hstop, dropWhile_append_of_all hchars hstop]
  have hne : name.toList ≠ [] := fun h => hname (String.toList_eq_nil_iff.1 h)
  have hclass : classify ':' name.toList = .named name := by
    simp [classify, opensBlob, isWordStart, isAlphabetic, hname]
  rw [kinds_lexeme (by decide) (fun h => absurd h (by decide)), hmunch, hclass]

end Clausal.Token
