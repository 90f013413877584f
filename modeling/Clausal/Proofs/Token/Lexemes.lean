import Clausal.Dialect
import Clausal.Proofs.Text.Hex
import Clausal.Proofs.Token.Kinds

/-!
# Lexemes read back

One statement for each class of lexemes: what is written, followed by anything that cannot go on with it, is
read as one token of the expected kind. Words and quoted texts only mind letters, numerals and quotes after
them, so a point or a parenthesis may follow at once.
-/

namespace Clausal.Token

open Text

/-! ### Words -/

private theorem opensBlob_word {c : Char} {w rest : List Char} (hw : ∀ d ∈ w, isWordChar d = true)
    (hrest : Severed rest) : opensBlob c (w ++ rest) = false := by
  have hhead : (w ++ rest).head? ≠ some '\'' := by
    cases w with
    | nil => exact fun h => (hrest _ h).2.1 rfl
    | cons d w =>
      intro h
      have hd := hw d (by simp)
      obtain rfl : d = '\'' := by simpa using h
      exact absurd hd (by decide)
  rw [opensBlob, beq_false_of_ne hhead, Bool.and_false]

private theorem opensBlob_word_alone {c : Char} {w : List Char} (hw : ∀ d ∈ w, isWordChar d = true) :
    opensBlob c w = false := by
  have h : opensBlob c (w ++ []) = false := opensBlob_word hw Apart.nil.severed
  rwa [List.append_nil] at h

def wordKind (word : List Char) : Kind :=
  match Keyword.ofWord? word with
  | some k => .keyword k
  | none => .identifier (String.ofList word)

theorem oneToken_word {c : Char} {w rest : List Char} (hc : isWordStart c = true)
    (hw : ∀ d ∈ w, isWordChar d = true) (hrest : Severed rest) :
    OneToken (c :: w) (wordKind (c :: w)) rest := by
  have hsingle : c ≠ '\'' := ne_of_isWordStart hc (by decide)
  have hdouble : c ≠ '"' := ne_of_isWordStart hc (by decide)
  have hminus : c ≠ '-' := ne_of_isWordStart hc (by decide)
  have hdigit := isDigit_of_isWordStart hc
  have hstop : ∀ d, rest.head? = some d → isWordChar d = false := fun d hd => (hrest d hd).1
  have hmunch : munch c (w ++ rest) = (w, rest) := by
    simp [munch, hsingle, hdouble, opensBlob_word hw hrest, hdigit, hc, takeWhile_append_of_all hw hstop,
      dropWhile_append_of_all hw hstop]
  have hclass : classify c w = wordKind (c :: w) := by
    simp only [classify, hsingle, hdouble, opensBlob_word_alone hw, hdigit, hc, if_false, if_true,
      Bool.false_eq_true]
    rfl
  exact hclass ▸ .of_munch (isBlank_of_isWordStart hc) hminus hmunch

private theorem keyword_word (k : Keyword) : ∃ c w, k.text.toList = c :: w ∧ isWordStart c = true ∧
    (∀ d ∈ w, isWordChar d = true) ∧ Keyword.ofWord? (c :: w) = some k := by
  cases k <;> exact ⟨_, _, rfl, by decide, List.all_eq_true.1 (by decide), by decide⟩

theorem kinds_keyword (k : Keyword) {rest : List Char} (hrest : Severed rest) :
    kinds (k.text.toList ++ rest) = .keyword k :: kinds rest := by
  obtain ⟨c, w, htext, hc, hw, hword⟩ := keyword_word k
  rw [htext, (oneToken_word hc hw hrest).kinds, wordKind, hword]

/-! ### Quoted text -/

theorem oneToken_quoted {quote : Char} {cs rest : List Char} (hquote : quote = '\'' ∨ quote = '"')
    (hrest : rest.head? ≠ some quote) :
    OneToken (Quoted.enclose quote cs) (classify quote (Quoted.encode quote cs ++ [quote])) rest := by
  have hblank : isBlank quote = false := by
    rcases hquote with rfl | rfl <;> decide
  have hminus : quote ≠ '-' := by
    rcases hquote with rfl | rfl <;> decide
  refine .of_munch hblank hminus ?_
  rw [List.append_assoc, List.singleton_append]
  simp only [munch, hquote, if_true, Quoted.untilClosing_encode quote cs rest hrest]

theorem oneToken_string (s : String) {rest : List Char} (hrest : rest.head? ≠ some '\'') :
    OneToken (Quoted.enclose '\'' s.toList) (.string s) rest := by
  have hclass : classify '\'' (Quoted.encode '\'' s.toList ++ ['\'']) = .string s := by
    simp [classify, Quoted.decode_encode]
  exact hclass ▸ oneToken_quoted (.inl rfl) hrest

theorem kinds_string (s : String) {rest : List Char} (hrest : rest.head? ≠ some '\'') :
    kinds (Quoted.enclose '\'' s.toList ++ rest) = .string s :: kinds rest := (oneToken_string s hrest).kinds

theorem oneToken_quotedName {name : String} {rest : List Char} (hname : name ≠ "")
    (hrest : rest.head? ≠ some '"') : OneToken (Quoted.enclose '"' name.toList) (.identifier name) rest := by
  have hclass : classify '"' (Quoted.encode '"' name.toList ++ ['"']) = .identifier name := by
    cases hcs : name.toList with
    | nil => exact absurd (String.toList_eq_nil_iff.1 hcs) hname
    | cons c cs =>
      have hback : String.ofList (c :: cs) = name := by rw [← hcs, String.ofList_toList]
      simp [classify, Quoted.decode_encode, hback]
  exact hclass ▸ oneToken_quoted (.inr rfl) hrest

/-- The bytes of a byte string are read back. -/
theorem oneToken_blob (bs : List UInt8) {rest : List Char} (hrest : rest.head? ≠ some '\'') :
    OneToken ('X' :: '\'' :: (pairsOfBytes bs ++ ['\''])) (.blob bs) rest := by
  have hend := Quoted.untilClosing_encode '\'' (pairsOfBytes bs) rest hrest
  have hback := Quoted.decode_encode '\'' (pairsOfBytes bs)
  rw [encode_pairsOfBytes] at hend hback
  have hmunch : munch 'X' ('\'' :: (pairsOfBytes bs ++ ['\'']) ++ rest)
      = ('\'' :: (pairsOfBytes bs ++ ['\'']), rest) := by
    simp [munch, opensBlob, hend]
  have hclass : classify 'X' ('\'' :: (pairsOfBytes bs ++ ['\''])) = .blob bs := by
    simp [classify, opensBlob, classifyBlob, hback, width_pairsOfBytes, bytesOfPairs_pairsOfBytes]
  exact hclass ▸ .of_munch (by decide) (by decide) hmunch

theorem kinds_blob (bs : List UInt8) {rest : List Char} (hrest : rest.head? ≠ some '\'') :
    kinds ('X' :: '\'' :: (pairsOfBytes bs ++ '\'' :: rest)) = .blob bs :: kinds rest := by
  rw [← (oneToken_blob bs hrest).kinds, List.cons_append, List.cons_append, List.append_assoc, List.singleton_append]

/-! ### Names -/

/-- A name as it is written in a dialect is read as the identifier of that name. -/
theorem oneToken_identifier {d : Dialect} (hd : d.quote = '"') {name : String} (hname : name ≠ "")
    {rest : List Char} (hrest : Severed rest) : OneToken (d.identifier name).toList (.identifier name) rest := by
  unfold Dialect.identifier
  split
  · rw [hd, String.toList_ofList]
    exact oneToken_quotedName hname fun h => (hrest _ h).2.2 rfl
  · rename_i hplain
    have hfacts : Dialect.isPlain name = true ∧ Keyword.ofWord? name.toList = none := by
      simpa [Dialect.needsQuoting, Keyword.isReserved] using hplain
    obtain ⟨hword, hreserved⟩ := hfacts
    rw [Dialect.isPlain] at hword
    split at hword
    · exact absurd hword (by simp)
    · rename_i c cs hcs
      obtain ⟨hc, hw⟩ := Bool.and_eq_true_iff.1 hword
      have hkind : wordKind (c :: cs) = .identifier name := by rw [wordKind, ← hcs, hreserved, String.ofList_toList]
      rw [hcs, ← hkind]
      exact oneToken_word hc (List.all_eq_true.1 hw) hrest

theorem kinds_identifier {d : Dialect} (hd : d.quote = '"') {name : String} (hname : name ≠ "")
    {rest : List Char} (hrest : Severed rest) :
    kinds ((d.identifier name).toList ++ rest) = .identifier name :: kinds rest :=
  (oneToken_identifier hd hname hrest).kinds

/-! ### Symbols -/

private theorem symbol_char {c : Char} {s : Symbol} (h : Symbol.ofChar? c = some s) :
    isBlank c = false ∧ isWordStart c = false ∧ c.isDigit = false ∧ c ≠ '\'' ∧ c ≠ '"' ∧ c ≠ ':' ∧ c ≠ '?' ∧
      ∀ cs, opensBlob c cs = false := by
  unfold Symbol.ofChar? at h
  split at h
  case h_16 => exact absurd h (by simp)
  all_goals
    refine ⟨by decide, by decide, by decide, by decide, by decide, by decide, by decide, ?_⟩
    intro cs
    simp [opensBlob]

/-- A symbol of one character, if it does not make up a longer one with what follows. -/
theorem kinds_symbol {c : Char} {s : Symbol} {rest : List Char} (hs : Symbol.ofChar? c = some s)
    (hpair : ∀ d, rest.head? = some d → Symbol.ofPair? c d = none)
    (hcomment : c = '-' → rest.head? ≠ some '-') : kinds (c :: rest) = .symbol s :: kinds rest := by
  obtain ⟨hblank, hstart, hdigit, hsingle, hdouble, hcolon, hmark, hblob⟩ := symbol_char hs
  have hmunch : munch c rest = ([], rest) := by
    cases rest with
    | nil => simp [munch, hsingle, hdouble, hblob, hdigit, hstart, hcolon, hmark]
    | cons d rest => simp [munch, hsingle, hdouble, hblob, hdigit, hstart, hcolon, hmark, hpair d rfl]
  have hclass : classify c [] = .symbol s := by
    simp [classify, hsingle, hdouble, hblob, hdigit, hstart, hcolon, hmark, hs]
  rw [kinds_lexeme hblank hcomment, hmunch, hclass]

/-- A symbol of two characters. -/
theorem kinds_pair {c d : Char} {s : Symbol} (rest : List Char) (hs : Symbol.ofPair? c d = some s) :
    kinds (c :: d :: rest) = .symbol s :: kinds rest := by
  have hmunch : munch c (d :: rest) = ([d], rest) ∧ classify c [d] = .symbol s ∧ isBlank c = false ∧ c ≠ '-' := by
    unfold Symbol.ofPair? at hs
    split at hs
    case h_8 => exact absurd hs (by simp)
    all_goals
      obtain rfl := Option.some.inj hs
      exact ⟨rfl, rfl, by decide, by decide⟩
  obtain ⟨hmunch, hclass, hblank, hminus⟩ := hmunch
  rw [kinds_lexeme hblank (fun h => absurd h hminus), hmunch, hclass]

@[simp] theorem kinds_leftParen (rest : List Char) : kinds ('(' :: rest) = .symbol .leftParen :: kinds rest :=
  kinds_symbol rfl (fun _ _ => rfl) (fun h => absurd h (by decide))

@[simp] theorem kinds_rightParen (rest : List Char) : kinds (')' :: rest) = .symbol .rightParen :: kinds rest :=
  kinds_symbol rfl (fun _ _ => rfl) (fun h => absurd h (by decide))

@[simp] theorem kinds_comma (rest : List Char) : kinds (',' :: rest) = .symbol .comma :: kinds rest :=
  kinds_symbol rfl (fun _ _ => rfl) (fun h => absurd h (by decide))

@[simp] theorem kinds_dot (rest : List Char) : kinds ('.' :: rest) = .symbol .dot :: kinds rest :=
  kinds_symbol rfl (fun _ _ => rfl) (fun h => absurd h (by decide))

@[simp] theorem kinds_eqSign (rest : List Char) : kinds ('=' :: rest) = .symbol .eq :: kinds rest :=
  kinds_symbol rfl (fun _ _ => rfl) (fun h => absurd h (by decide))

@[simp] theorem kinds_star (rest : List Char) : kinds ('*' :: rest) = .symbol .star :: kinds rest :=
  kinds_symbol rfl (fun _ _ => rfl) (fun h => absurd h (by decide))

theorem kinds_minus {rest : List Char} (hrest : rest.head? ≠ some '-') :
    kinds ('-' :: rest) = .symbol .minus :: kinds rest :=
  kinds_symbol rfl (fun _ _ => rfl) (fun _ => hrest)

end Clausal.Token
