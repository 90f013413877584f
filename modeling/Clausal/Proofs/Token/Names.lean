import Clausal.Proofs.Token.Lexemes

/-!
# Names in texts

What is read as a name is never empty. It is written as a word that needs no quotes, or in quotes and then with
every quote of its own twice; and a named parameter is one word after its colon.
-/

namespace Clausal.Token

open Text

/-- The kind of a token that some text has. -/
def Kind.Sane : Kind → Prop
  | identifier name => name ≠ ""
  | named name => name ≠ "" ∧ ∀ c ∈ name.toList, isWordChar c = true
  | _ => True

private theorem classifyBlob_cases (body : List Char) :
    (∃ fault, classifyBlob body = .malformed fault) ∨ ∃ bytes, classifyBlob body = .blob bytes := by
  unfold classifyBlob
  split
  · exact .inl ⟨_, rfl⟩
  split
  · exact .inl ⟨_, rfl⟩
  split
  · exact .inr ⟨_, rfl⟩
  · exact .inl ⟨_, rfl⟩

private theorem classifyNumber_cases (lexeme : List Char) :
    (∃ fault, classifyNumber lexeme = .malformed fault) ∨ (∃ n, classifyNumber lexeme = .integer n) ∨
      ∃ x, classifyNumber lexeme = .float x := by
  unfold classifyNumber
  simp only
  split
  · split
    · exact .inr (.inl ⟨_, rfl⟩)
    · exact .inl ⟨_, rfl⟩
  · split
    · exact .inl ⟨_, rfl⟩
    · exact .inr (.inr ⟨_, rfl⟩)

/-- Text that is decoded is the encoding of what it is decoded to. -/
theorem eq_encode_of_decode {quote : Char} {cs s : List Char} (h : Quoted.decode quote cs = some s) :
    cs = Quoted.encode quote s ++ [quote] := by
  fun_induction Quoted.decode quote cs generalizing s with
  | case1 => cases h
  | case2 =>
    cases h
    rfl
  | case3 => cases h
  | case4 rest ih =>
    obtain ⟨s', hs', rfl⟩ := Option.map_eq_some_iff.1 h
    rw [ih hs', Quoted.encode, if_pos rfl]
    rfl
  | case5 => cases h
  | case6 c d rest hc ih =>
    obtain ⟨s', hs', rfl⟩ := Option.map_eq_some_iff.1 h
    rw [Quoted.encode, if_neg hc, List.cons_append, ← ih hs']

/-- A word in the text. -/
private theorem munch_word {c : Char} {cs : List Char} (hc : isWordStart c = true)
    (hblob : opensBlob c (munch c cs).1 = false) : (munch c cs).1 = cs.takeWhile isWordChar := by
  have hsingle : c ≠ '\'' := ne_of_isWordStart hc (by decide)
  have hdouble : c ≠ '"' := ne_of_isWordStart hc (by decide)
  have hdigit := isDigit_of_isWordStart hc
  have hopen : opensBlob c cs = false := by
    cases hopen : opensBlob c cs with
    | false => rfl
    | true =>
      have hmunch : (munch c cs).1 = cs.take 1 ++ (Quoted.untilClosing '\'' (cs.drop 1)).1 := by
        simp [munch, hsingle, hdouble, hopen]
      obtain ⟨hx, hquote⟩ := Bool.and_eq_true_iff.1 hopen
      cases cs with
      | nil => cases hquote
      | cons d cs =>
        rw [hmunch, opensBlob, hx] at hblob
        exact absurd (hquote.symm.trans hblob) (by decide)
  simp [munch, hsingle, hdouble, hopen, hdigit, hc]

private theorem needsQuoting_eq_false {c : Char} {w : List Char} (hc : isWordStart c = true)
    (hw : ∀ d ∈ w, isWordChar d = true) (hword : Keyword.ofWord? (c :: w) = none) :
    Dialect.needsQuoting (String.ofList (c :: w)) = false := by
  have hplain : Dialect.isPlain (String.ofList (c :: w)) = true := by
    rw [Dialect.isPlain, String.toList_ofList]
    exact Bool.and_eq_true_iff.2 ⟨hc, List.all_eq_true.2 hw⟩
  rw [Dialect.needsQuoting, hplain, Keyword.isReserved, String.toList_ofList, hword]
  rfl

/-- How a name is written. -/
theorem classify_eq_identifier {c : Char} {cs : List Char} {name : String}
    (h : classify c (munch c cs).1 = .identifier name) :
    name ≠ "" ∧ ((c ≠ '"' ∧ Dialect.needsQuoting name = false) ∨
      c = '"' ∧ (munch c cs).1 = Quoted.encode '"' name.toList ++ ['"']) := by
  unfold classify at h
  split at h
  · split at h <;> cases h
  split at h
  · rename_i hc
    subst hc
    split at h
    · cases h
    · rename_i s hs hdecode
      cases h
      refine ⟨fun he => hs (String.ofList_eq_empty_iff.1 he), .inr ⟨rfl, ?_⟩⟩
      rw [String.toList_ofList]
      exact eq_encode_of_decode hdecode
    · cases h
  split at h
  · rcases classifyBlob_cases ((munch c cs).1.drop 1) with ⟨_, hk⟩ | ⟨_, hk⟩ <;> rw [hk] at h <;> cases h
  split at h
  · rcases classifyNumber_cases (c :: (munch c cs).1) with ⟨_, hk⟩ | ⟨_, hk⟩ | ⟨_, hk⟩ <;> rw [hk] at h <;> cases h
  split at h
  · rename_i hdouble hblob hdigit hc
    split at h
    · cases h
    · rename_i hword
      cases h
      have hmunch := munch_word hc (by simpa using hblob)
      refine ⟨fun he => absurd (String.ofList_eq_empty_iff.1 he) (by simp), .inl ⟨hdouble, ?_⟩⟩
      refine needsQuoting_eq_false hc (fun d hd => ?_) hword
      rw [hmunch] at hd
      exact List.all_eq_true.1 List.all_takeWhile d hd
  split at h
  · split at h <;> cases h
  split at h
  · split at h <;> cases h
  split at h
  · split at h <;> cases h
  · split at h <;> cases h

/-- How a named parameter is written. -/
theorem classify_eq_named {c : Char} {cs : List Char} {name : String}
    (h : classify c (munch c cs).1 = .named name) :
    name ≠ "" ∧ ∀ d ∈ name.toList, isWordChar d = true := by
  unfold classify at h
  split at h
  · split at h <;> cases h
  split at h
  · split at h <;> cases h
  split at h
  · rcases classifyBlob_cases ((munch c cs).1.drop 1) with ⟨_, hk⟩ | ⟨_, hk⟩ <;> rw [hk] at h <;> cases h
  split at h
  · rcases classifyNumber_cases (c :: (munch c cs).1) with ⟨_, hk⟩ | ⟨_, hk⟩ | ⟨_, hk⟩ <;> rw [hk] at h <;> cases h
  split at h
  · split at h <;> cases h
  split at h
  · rename_i hcolon
    subst hcolon
    have hmunch : (munch ':' cs).1 = cs.takeWhile isWordChar := by simp [munch, opensBlob]
    rw [hmunch] at h
    split at h
    · cases h
    · rename_i hne
      cases h
      rw [String.toList_ofList]
      refine ⟨fun he => ?_, List.all_eq_true.1 List.all_takeWhile⟩
      rw [String.ofList_eq_empty_iff.1 he] at hne
      exact hne rfl
  split at h
  · split at h <;> cases h
  split at h
  · split at h <;> cases h
  · split at h <;> cases h

/-- No lexeme is the end of the text. -/
theorem classify_ne_eof (c : Char) (cs : List Char) : classify c cs ≠ .eof := by
  intro h
  unfold classify at h
  split at h
  · split at h <;> cases h
  split at h
  · split at h <;> cases h
  split at h
  · rcases classifyBlob_cases (cs.drop 1) with ⟨_, hk⟩ | ⟨_, hk⟩ <;> rw [hk] at h <;> cases h
  split at h
  · rcases classifyNumber_cases (c :: cs) with ⟨_, hk⟩ | ⟨_, hk⟩ | ⟨_, hk⟩ <;> rw [hk] at h <;> cases h
  split at h
  · split at h <;> cases h
  split at h
  · split at h <;> cases h
  split at h
  · split at h <;> cases h
  split at h
  · split at h <;> cases h
  · split at h <;> cases h

theorem sane_classify (c : Char) (cs : List Char) : (classify c (munch c cs).1).Sane := by
  cases h : classify c (munch c cs).1 with
  | identifier name => exact (classify_eq_identifier h).1
  | named name => exact classify_eq_named h
  | _ => exact trivial

/-- Every token stands in the text where its span says, and is classified by its own lexeme. -/
theorem mem_scanFrom {start : Nat} {cs : List Char} {t : Token} (h : t ∈ scanFrom start cs) :
    ∃ before c rest, cs = before ++ c :: rest ∧ t.span.start = start + width before ∧
      t.kind = classify c (munch c rest).1 := by
  fun_induction scanFrom start cs with
  | case1 => exact absurd h List.not_mem_nil
  | case2 start cs c rest hcs first stop ih =>
    have hsplit := splitTrivia_append false cs
    rw [hcs] at hsplit
    rcases List.mem_cons.1 h with rfl | h
    · exact ⟨_, c, rest, hsplit.symm, rfl, rfl⟩
    · obtain ⟨before, d, more, hmore, hstart, hkind⟩ := ih h
      refine ⟨(splitTrivia false cs).1 ++ c :: (munch c rest).1 ++ before, d, more, ?_, ?_, hkind⟩
      · rw [List.append_assoc, List.append_assoc, List.cons_append, ← hmore, munch_append, hsplit]
      · rw [hstart, width_append, width_append]
        omega

theorem sane_scan {text : String} {t : Token} (h : t ∈ scan text) : t.kind.Sane := by
  obtain ⟨_, c, rest, _, _, hkind⟩ := mem_scanFrom h
  rw [hkind]
  exact sane_classify c rest

/-! ### Names of types -/

/-- The token is not written in quotes. -/
def IsUnquoted (text : String) (t : Token) : Prop := (t.span.split text).2.toList.head? ≠ some '"'

theorem isUnquoted_of_notMem {text : String} (h : '"' ∉ text.toList) (t : Token) : t.IsUnquoted text := by
  intro hquote
  have hafter : (t.span.split text).2.toList = (Text.splitBytes t.span.start text.toList).2 := String.toList_ofList
  rw [hafter] at hquote
  refine h ?_
  rw [← Text.splitBytes_append t.span.start text.toList]
  exact List.mem_append_right _ (List.mem_of_head? hquote)

/-- The token names the type of a column: it stands right after another name, in the parentheses after TABLE. -/
def NamesType (all : List Token) (t : Token) : Prop :=
  ∃ before name span after, all = before ++ ⟨.identifier name, span⟩ :: t :: after ∧
    [.keyword .table, .symbol .leftParen].Sublist (before.map (·.kind)) ∧ ∃ type, t.kind = .identifier type

theorem NamesType.mem {all : List Token} {t : Token} (h : NamesType all t) : t ∈ all := by
  obtain ⟨before, _, _, after, rfl, -⟩ := h
  simp

theorem needsQuoting_of_isUnquoted {text : String} {t : Token} (ht : t ∈ scan text) (h : t.IsUnquoted text)
    {name : String} (hname : t.kind = .identifier name) : Dialect.needsQuoting name = false := by
  obtain ⟨before, c, rest, htext, hstart, hkind⟩ := mem_scanFrom ht
  rw [Nat.zero_add] at hstart
  have hafter : (t.span.split text).2.toList = c :: rest := by
    simp only [Span.split, hstart, htext, Text.splitBytes_width, String.toList_ofList]
  rw [IsUnquoted, hafter] at h
  rcases (classify_eq_identifier (hkind.symm.trans hname)).2 with ⟨-, hplain⟩ | ⟨rfl, -⟩
  · exact hplain
  · exact absurd rfl h

end Clausal.Token
