import Clausal.Proofs.Text.Classes
import Clausal.Token.Scan

/-!
# What a text is made of

The kinds of the tokens of a text, without their places. Where the text begins does not matter for them, so a
text is read token by token: a blank in front is passed over, and a lexeme in front is one kind followed by the
kinds of what is left.
-/

namespace Clausal.Token

open Text

/-- What the tokens of a text stand for, in order. -/
def kinds (cs : List Char) : List Kind := (scanFrom 0 cs).map (·.kind)

theorem scanFrom_eq_nil {cs : List Char} (start : Nat) (h : (splitTrivia false cs).2 = []) :
    scanFrom start cs = [] := by
  rw [scanFrom]
  split
  · rfl
  · rename_i hcons
    rw [h] at hcons
    exact absurd hcons (by simp)

/-- A text whose first lexeme begins with `c` has a token there, and the tokens of the text behind it. -/
theorem scanFrom_eq {cs rest : List Char} {c : Char} {start : Nat} (h : (splitTrivia false cs).2 = c :: rest) :
    scanFrom start cs = ⟨classify c (munch c rest).1, ⟨start + width (splitTrivia false cs).1,
        start + width (splitTrivia false cs).1 + width (c :: (munch c rest).1)⟩⟩ ::
      scanFrom (start + width (splitTrivia false cs).1 + width (c :: (munch c rest).1)) (munch c rest).2 := by
  rw [scanFrom]
  split
  · rename_i hnil
    rw [h] at hnil
    exact absurd hnil (by simp)
  · rename_i d more hcons
    rw [h] at hcons
    obtain ⟨rfl, rfl⟩ := List.cons.inj hcons
    rfl

theorem scanFrom_eq_cons {cs rest : List Char} {c : Char} (start : Nat)
    (h : (splitTrivia false cs).2 = c :: rest) :
    ∃ span stop, scanFrom start cs
      = ⟨classify c (munch c rest).1, span⟩ :: scanFrom stop (munch c rest).2 :=
  ⟨_, _, scanFrom_eq h⟩

/-- The kinds of tokens do not depend on where the text begins. -/
theorem map_kind_scanFrom (start : Nat) (cs : List Char) : (scanFrom start cs).map (·.kind) = kinds cs := by
  have same : ∀ n start other (cs : List Char), cs.length ≤ n →
      (scanFrom start cs).map (·.kind) = (scanFrom other cs).map (·.kind) := by
    intro n
    induction n with
    | zero =>
      intro start other cs hlen
      have hnil : cs = [] := List.eq_nil_of_length_eq_zero (by omega)
      subst hnil
      rw [scanFrom_eq_nil start rfl, scanFrom_eq_nil other rfl]
    | succ n ih =>
      intro start other cs hlen
      cases hcs : (splitTrivia false cs).2 with
      | nil => rw [scanFrom_eq_nil start hcs, scanFrom_eq_nil other hcs]
      | cons c rest =>
        obtain ⟨span, stop, hstart⟩ := scanFrom_eq_cons start hcs
        obtain ⟨span', stop', hother⟩ := scanFrom_eq_cons other hcs
        have h₁ := length_splitTrivia_le cs
        have h₂ := length_munch_le c rest
        rw [hcs, List.length_cons] at h₁
        rw [hstart, hother, List.map_cons, List.map_cons, ih stop stop' _ (by omega)]
  exact same cs.length start 0 cs (Nat.le_refl _)

@[simp] theorem kinds_nil : kinds [] = [] := by
  rw [kinds, scanFrom_eq_nil 0 rfl, List.map_nil]

theorem kinds_eq_cons {cs rest : List Char} {c : Char} (h : (splitTrivia false cs).2 = c :: rest) :
    kinds cs = classify c (munch c rest).1 :: kinds (munch c rest).2 := by
  obtain ⟨span, stop, hscan⟩ := scanFrom_eq_cons 0 h
  rw [kinds, hscan, List.map_cons, map_kind_scanFrom]

theorem kinds_eq_nil {cs : List Char} (h : (splitTrivia false cs).2 = []) : kinds cs = [] := by
  rw [kinds, scanFrom_eq_nil 0 h, List.map_nil]

/-- Texts that go on alike after what is passed over have the same tokens. -/
theorem kinds_congr {cs ds : List Char} (h : (splitTrivia false cs).2 = (splitTrivia false ds).2) :
    kinds cs = kinds ds := by
  cases hds : (splitTrivia false ds).2 with
  | nil => rw [kinds_eq_nil hds, kinds_eq_nil (h.trans hds)]
  | cons d rest => rw [kinds_eq_cons hds, kinds_eq_cons (h.trans hds)]

/-- A blank in front of a text is passed over. -/
theorem kinds_blank {c : Char} (cs : List Char) (h : isBlank c = true) : kinds (c :: cs) = kinds cs :=
  kinds_congr (by simp [splitTrivia, h])

theorem kinds_blanks {blanks : List Char} (h : ∀ c ∈ blanks, isBlank c = true) (cs : List Char) :
    kinds (blanks ++ cs) = kinds cs := by
  induction blanks with
  | nil => rfl
  | cons c blanks ih =>
    obtain ⟨hc, hblanks⟩ := List.forall_mem_cons.1 h
    rw [List.cons_append, kinds_blank _ hc, ih hblanks]

/-- Neither a blank nor a comment stands where a lexeme begins. -/
theorem head_splitTrivia {comment : Bool} {cs rest : List Char} {c : Char} (h : (splitTrivia comment cs).2 = c :: rest) :
    isBlank c = false ∧ (c = '-' → rest.head? ≠ some '-') := by
  induction cs generalizing comment with
  | nil => cases h
  | cons d cs ih =>
    unfold splitTrivia at h
    split at h
    · exact ih h
    split at h
    · exact ih h
    split at h
    · exact ih h
    · rename_i hblank hcomment
      cases h
      refine ⟨by simpa using hblank, fun hc hhead => hcomment ?_⟩
      rw [hc, hhead]
      rfl

@[simp] theorem kinds_space (cs : List Char) : kinds (' ' :: cs) = kinds cs :=
  kinds_blank cs (by decide)

theorem splitTrivia_lexeme {c : Char} {cs : List Char} (hblank : isBlank c = false)
    (hcomment : c = '-' → cs.head? ≠ some '-') : splitTrivia false (c :: cs) = ([], c :: cs) := by
  have hopen : (c == '-' && cs.head? == some '-') = false := by
    by_cases hc : c = '-'
    · simp [hcomment hc]
    · simp [hc]
  simp [splitTrivia, hblank, hopen]

/-- A lexeme in front of a text is one token. -/
theorem kinds_lexeme {c : Char} {cs : List Char} (hblank : isBlank c = false)
    (hcomment : c = '-' → cs.head? ≠ some '-') :
    kinds (c :: cs) = classify c (munch c cs).1 :: kinds (munch c cs).2 :=
  kinds_eq_cons (congrArg (·.2) (splitTrivia_lexeme hblank hcomment))

/-- What is written in front of a text is one token, which begins and ends with it. -/
def OneToken (written : List Char) (k : Kind) (rest : List Char) : Prop :=
  ∀ start, scanFrom start (written ++ rest) =
    ⟨k, ⟨start, start + width written⟩⟩ :: scanFrom (start + width written) rest

/-- Where a lexeme goes as far as what is written, this is one token. -/
theorem OneToken.of_munch {c : Char} {cs rest : List Char} (hblank : isBlank c = false) (hminus : c ≠ '-')
    (hmunch : munch c (cs ++ rest) = (cs, rest)) : OneToken (c :: cs) (classify c cs) rest := by
  intro start
  have hsplit : splitTrivia false (c :: (cs ++ rest)) = ([], c :: (cs ++ rest)) :=
    splitTrivia_lexeme hblank fun h => absurd h hminus
  rw [List.cons_append, scanFrom_eq (congrArg (·.2) hsplit), hsplit, hmunch]
  rfl

theorem OneToken.kinds {written rest : List Char} {k : Kind} (h : OneToken written k rest) :
    kinds (written ++ rest) = k :: kinds rest := by
  rw [Token.kinds, h 0, List.map_cons, map_kind_scanFrom]

/-- What may follow a word, a quoted text or a number without changing it. -/
def Apart (rest : List Char) : Prop :=
  ∀ c, rest.head? = some c → isWordChar c = false ∧ c ≠ '\'' ∧ c ≠ '"' ∧ c ≠ '.'

/-- What may follow a word or a quoted text without changing it. -/
def Severed (rest : List Char) : Prop :=
  ∀ c, rest.head? = some c → isWordChar c = false ∧ c ≠ '\'' ∧ c ≠ '"'

theorem Apart.severed {rest : List Char} (h : Apart rest) : Severed rest :=
  fun c hc => ⟨(h c hc).1, (h c hc).2.1, (h c hc).2.2.1⟩

theorem Apart.nil : Apart [] := fun _ h => by simp at h

theorem Apart.cons {c : Char} (rest : List Char)
    (h : isWordChar c = false ∧ c ≠ '\'' ∧ c ≠ '"' ∧ c ≠ '.') : Apart (c :: rest) := by
  intro d hd
  obtain rfl : c = d := by simpa using hd
  exact h

theorem Severed.cons {c : Char} (rest : List Char)
    (h : isWordChar c = false ∧ c ≠ '\'' ∧ c ≠ '"') : Severed (c :: rest) := by
  intro d hd
  obtain rfl : c = d := by simpa using hd
  exact h

@[simp] theorem Apart.space (rest : List Char) : Apart (' ' :: rest) := .cons rest (by decide)

@[simp] theorem Apart.comma (rest : List Char) : Apart (',' :: rest) := .cons rest (by decide)

@[simp] theorem Apart.rightParen (rest : List Char) : Apart (')' :: rest) := .cons rest (by decide)

@[simp] theorem Severed.dot (rest : List Char) : Severed ('.' :: rest) := .cons rest (by decide)

@[simp] theorem Severed.leftParen (rest : List Char) : Severed ('(' :: rest) := .cons rest (by decide)

@[simp] theorem Severed.eq (rest : List Char) : Severed ('=' :: rest) := .cons rest (by decide)

theorem takeWhile_append_of_all {p : Char → Bool} {cs rest : List Char} (h : ∀ c ∈ cs, p c = true)
    (hrest : ∀ c, rest.head? = some c → p c = false) : (cs ++ rest).takeWhile p = cs := by
  rw [List.takeWhile_append_of_pos h]
  cases rest with
  | nil => simp
  | cons c rest => simp [hrest c rfl]

theorem dropWhile_append_of_all {p : Char → Bool} {cs rest : List Char} (h : ∀ c ∈ cs, p c = true)
    (hrest : ∀ c, rest.head? = some c → p c = false) : (cs ++ rest).dropWhile p = rest := by
  rw [List.dropWhile_append_of_pos h]
  cases rest with
  | nil => simp
  | cons c rest => simp [hrest c rfl]

end Clausal.Token
