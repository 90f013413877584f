import Clausal.Proofs.Text.Quoted
import Clausal.Proofs.Token.Tiling

/-!
# Layout

Blanks between the tokens of a text, in front of them and behind them do not matter. Where a blank is put in at the
end of a lexeme, the lexeme stays as it is, since what it looked at behind its end was no part of it before and is
none now; only what no quote closes takes the blank in, and stays what it was. So the same tokens are read, and
gaps stay gaps.
-/

namespace Clausal

namespace Text

/-- The second text is the first one, from an offset on, with blanks put in at places that are allowed. -/
inductive Spaced (allowed : Nat → Prop) : Nat → List Char → List Char → Prop where
  | nil {n : Nat} : Spaced allowed n [] []
  | keep {n : Nat} {c : Char} {cs ds : List Char} (rest : Spaced allowed (n + c.utf8Size) cs ds) :
    Spaced allowed n (c :: cs) (c :: ds)
  | blank {n : Nat} {c : Char} {cs ds : List Char} (here : allowed n) (hblank : isBlank c = true)
    (rest : Spaced allowed n cs ds) : Spaced allowed n cs (c :: ds)

instance decidableSpaced {allowed : Nat → Prop} [DecidablePred allowed] :
    (n : Nat) → (cs ds : List Char) → Decidable (Spaced allowed n cs ds)
  | _, [], [] => isTrue .nil
  | _, _ :: _, [] => isFalse nofun
  | n, [], d :: ds =>
    have : Decidable (Spaced allowed n [] ds) := decidableSpaced n [] ds
    decidable_of_iff (isBlank d = true ∧ allowed n ∧ Spaced allowed n [] ds)
      ⟨fun ⟨hblank, here, rest⟩ => .blank here hblank rest, fun h => by
        cases h with
        | blank here hblank rest => exact ⟨hblank, here, rest⟩⟩
  | n, c :: cs, d :: ds =>
    have : Decidable (Spaced allowed (n + c.utf8Size) cs ds) := decidableSpaced (n + c.utf8Size) cs ds
    have : Decidable (Spaced allowed n (c :: cs) ds) := decidableSpaced n (c :: cs) ds
    decidable_of_iff (c = d ∧ Spaced allowed (n + c.utf8Size) cs ds ∨
        isBlank d = true ∧ allowed n ∧ Spaced allowed n (c :: cs) ds)
      ⟨fun h => by
        rcases h with ⟨rfl, rest⟩ | ⟨hblank, here, rest⟩
        · exact .keep rest
        · exact .blank here hblank rest, fun h => by
        cases h with
        | keep rest => exact .inl ⟨rfl, rest⟩
        | blank here hblank rest => exact .inr ⟨hblank, here, rest⟩⟩

namespace Spaced

variable {allowed : Nat → Prop} {n : Nat} {cs ds run rest : List Char}

theorem all_blank (h : Spaced allowed n [] ds) : ∀ c ∈ ds, isBlank c = true := by
  generalize hcs : [] = cs at h
  induction h with
  | nil => exact fun c hc => absurd hc List.not_mem_nil
  | keep rest ih => cases hcs
  | blank here hblank rest ih => exact List.forall_mem_cons.2 ⟨hblank, ih hcs⟩

/-- Where nothing may be put in the text stays as it is. -/
theorem kept (h : Spaced allowed n (run ++ rest) ds) (hnone : ∀ m, allowed m → n ≤ m → n + width run ≤ m) :
    ∃ rest', ds = run ++ rest' ∧ Spaced allowed (n + width run) rest rest' := by
  induction run generalizing n ds with
  | nil => exact ⟨ds, rfl, h⟩
  | cons c run ih =>
    cases h with
    | keep hrest =>
      obtain ⟨rest', rfl, hrest'⟩ := ih hrest fun m hm hle => by
        have hbehind := hnone m hm (Nat.le_trans (Nat.le_add_right _ _) hle)
        rw [width_cons] at hbehind
        omega
      refine ⟨rest', rfl, ?_⟩
      rwa [width_cons, ← Nat.add_assoc]
    | blank here hblank hrest =>
      have hbehind := hnone n here (Nat.le_refl n)
      have hpos : 0 < width (c :: run) := width_pos
      omega

/-- A run of characters between two places stays together. Blanks may only be put in front of it. -/
theorem together (h : Spaced allowed n (run ++ rest) ds) (hnone : ∀ m, allowed m → n < m → n + width run ≤ m) :
    ∃ blanks rest', ds = blanks ++ (run ++ rest') ∧ (∀ c ∈ blanks, isBlank c = true) ∧
      Spaced allowed (n + width run) rest rest' := by
  cases run with
  | nil => exact ⟨[], ds, rfl, fun c hc => absurd hc List.not_mem_nil, h⟩
  | cons c run =>
    generalize hcs : c :: run ++ rest = cs at h
    induction h with
    | nil => cases hcs
    | @keep n d cs ds hrest ih =>
      obtain ⟨rfl, rfl⟩ := List.cons.inj hcs
      have hkept : ∀ m, allowed m → n + c.utf8Size ≤ m → n + c.utf8Size + width run ≤ m := by
        intro m hm hle
        have hpos := c.utf8Size_pos
        have hbehind := hnone m hm (by omega)
        rw [width_cons] at hbehind
        omega
      obtain ⟨rest', rfl, hrest'⟩ := hrest.kept hkept
      refine ⟨[], rest', rfl, fun c hc => absurd hc List.not_mem_nil, ?_⟩
      rwa [width_cons, ← Nat.add_assoc]
    | blank here hblank hrest ih =>
      obtain ⟨blanks, rest', rfl, hblanks, hrest'⟩ := ih hnone hcs
      exact ⟨_ :: blanks, rest', rfl, List.forall_mem_cons.2 ⟨hblank, hblanks⟩, hrest'⟩

end Spaced

/-- Whatever stands at the front of the second text, up to a blank, stands at the front of the first one. -/
def Loosened (cs ds : List Char) : Prop :=
  ∀ front, (∀ c ∈ front, isBlank c = false) → front <+: ds → front <+: cs

theorem Spaced.loosened {allowed : Nat → Prop} {n : Nat} {cs ds : List Char} (h : Spaced allowed n cs ds) :
    Loosened cs ds := by
  induction h with
  | nil => exact fun _ _ hfront => hfront
  | @keep n c cs ds rest ih =>
    intro front hplain hfront
    cases front with
    | nil => exact List.nil_prefix
    | cons d front =>
      obtain ⟨rfl, hmore⟩ := List.cons_prefix_cons.1 hfront
      exact List.cons_prefix_cons.2 ⟨rfl, ih front (fun c hc => hplain c (List.mem_cons_of_mem _ hc)) hmore⟩
  | @blank n c cs ds here hblank rest ih =>
    intro front hplain hfront
    cases front with
    | nil => exact List.nil_prefix
    | cons d front =>
      obtain ⟨rfl, -⟩ := List.cons_prefix_cons.1 hfront
      rw [hplain d List.mem_cons_self] at hblank
      cases hblank

namespace Loosened

variable {cs ds : List Char} (h : Loosened cs ds)

include h

theorem head {d : Char} {more : List Char} (hds : ds = d :: more) (hd : isBlank d = false) :
    ∃ rest, cs = d :: rest := by
  obtain ⟨rest, hrest⟩ := h [d] (by simpa using hd) (by rw [hds]; exact ⟨more, rfl⟩)
  exact ⟨rest, hrest.symm⟩

theorem two {d e : Char} {more : List Char} (hds : ds = d :: e :: more) (hd : isBlank d = false)
    (he : isBlank e = false) : ∃ rest, cs = d :: e :: rest := by
  obtain ⟨rest, hrest⟩ := h [d, e] (by simp [hd, he]) (by rw [hds]; exact ⟨more, rfl⟩)
  exact ⟨rest, hrest.symm⟩

theorem head_ne {q : Char} (hq : isBlank q = false) (hcs : cs.head? ≠ some q) : ds.head? ≠ some q := by
  intro hds
  obtain ⟨more, hmore⟩ := List.head?_eq_some_iff.1 hds
  obtain ⟨rest, rfl⟩ := h.head hmore hq
  exact hcs rfl

theorem append (front : List Char) : Loosened (front ++ cs) (front ++ ds) := by
  induction front with
  | nil => exact h
  | cons c front ih =>
    intro start hplain hstart
    cases start with
    | nil => exact List.nil_prefix
    | cons d start =>
      obtain ⟨rfl, hmore⟩ := List.cons_prefix_cons.1 hstart
      exact List.cons_prefix_cons.2 ⟨rfl, ih start (fun c hc => hplain c (List.mem_cons_of_mem _ hc)) hmore⟩

end Loosened

/-- A run of a class without blanks ends where it ended. -/
theorem Loosened.run {p : Char → Bool} (hp : ∀ c, isBlank c = true → p c = false) {cs ds : List Char}
    (h : Loosened (cs.dropWhile p) ds) :
    (cs.takeWhile p ++ ds).takeWhile p = cs.takeWhile p ∧ (cs.takeWhile p ++ ds).dropWhile p = ds := by
  have hstop : ∀ d, ds.head? = some d → p d = false := by
    intro d hd
    cases hblank : isBlank d with
    | true => exact hp d hblank
    | false =>
      obtain ⟨more, hmore⟩ := List.head?_eq_some_iff.1 hd
      obtain ⟨rest, hrest⟩ := h.head hmore hblank
      have hfirst := List.head?_dropWhile_not p cs
      rw [hrest] at hfirst
      simpa using hfirst
  have hall : ∀ c ∈ cs.takeWhile p, p c = true := List.all_eq_true.1 List.all_takeWhile
  exact ⟨Token.takeWhile_append_of_all hall hstop, Token.dropWhile_append_of_all hall hstop⟩

end Text

namespace Token

open Text

/-! ### Numbers -/

section Numbers

variable {cs ds : List Char}

private theorem splitSign_of_head (h : cs.head? ≠ some '+' ∧ cs.head? ≠ some '-') : splitSign cs = ([], cs) := by
  cases cs with
  | nil => rfl
  | cons c cs => exact if_neg (not_or.2 ⟨fun hc => h.1 (congrArg some hc), fun hc => h.2 (congrArg some hc)⟩)

private theorem splitExponent_of_head (h : cs.head? ≠ some 'e' ∧ cs.head? ≠ some 'E') :
    splitExponent cs = ([], cs) := by
  cases cs with
  | nil => rfl
  | cons c cs => exact if_neg (not_or.2 ⟨fun hc => h.1 (congrArg some hc), fun hc => h.2 (congrArg some hc)⟩)

private theorem splitFraction_of_head (h : ∀ d more, cs = '.' :: d :: more → d.isDigit = false) :
    splitFraction cs = ([], cs) := by
  unfold splitFraction
  split
  · rename_i d more
    rw [h d more rfl]
    rfl
  · rfl

private theorem splitSign_loosened (h : Loosened (splitSign cs).2 ds) :
    splitSign ((splitSign cs).1 ++ ds) = ((splitSign cs).1, ds) := by
  cases cs with
  | nil => exact splitSign_of_head ⟨h.head_ne (by decide) nofun, h.head_ne (by decide) nofun⟩
  | cons c cs =>
    by_cases hc : c = '+' ∨ c = '-'
    · have hsplit : ∀ more, splitSign (c :: more) = ([c], more) := fun _ => if_pos hc
      rw [hsplit]
      exact hsplit ds
    · have hsplit : splitSign (c :: cs) = ([], c :: cs) := if_neg hc
      rw [hsplit] at h ⊢
      have hplus : (c :: cs).head? ≠ some '+' := fun he => hc (.inl (Option.some.inj he))
      have hminus : (c :: cs).head? ≠ some '-' := fun he => hc (.inr (Option.some.inj he))
      exact splitSign_of_head ⟨h.head_ne (by decide) hplus, h.head_ne (by decide) hminus⟩

theorem splitExponent_loosened (h : Loosened (splitExponent cs).2 ds) :
    splitExponent ((splitExponent cs).1 ++ ds) = ((splitExponent cs).1, ds) := by
  cases cs with
  | nil => exact splitExponent_of_head ⟨h.head_ne (by decide) nofun, h.head_ne (by decide) nofun⟩
  | cons c cs =>
    by_cases hc : c = 'e' ∨ c = 'E'
    · have hsplit : ∀ more, splitExponent (c :: more) = (c :: ((splitSign more).1 ++
          (splitSign more).2.takeWhile Char.isDigit), (splitSign more).2.dropWhile Char.isDigit) := fun _ => if_pos hc
      rw [hsplit] at h ⊢
      obtain ⟨htake, hdrop⟩ := h.run fun _ => isDigit_of_isBlank
      have hdigits := h.append ((splitSign cs).2.takeWhile Char.isDigit)
      rw [List.takeWhile_append_dropWhile] at hdigits
      rw [List.cons_append, List.append_assoc, hsplit, splitSign_loosened hdigits, htake, hdrop]
    · have hsplit : splitExponent (c :: cs) = ([], c :: cs) := if_neg hc
      rw [hsplit] at h ⊢
      have hsmall : (c :: cs).head? ≠ some 'e' := fun he => hc (.inl (Option.some.inj he))
      have hcapital : (c :: cs).head? ≠ some 'E' := fun he => hc (.inr (Option.some.inj he))
      exact splitExponent_of_head ⟨h.head_ne (by decide) hsmall, h.head_ne (by decide) hcapital⟩

theorem splitFraction_loosened (h : Loosened (splitFraction cs).2 ds) :
    splitFraction ((splitFraction cs).1 ++ ds) = ((splitFraction cs).1, ds) := by
  by_cases hpoint : ∃ d more, cs = '.' :: d :: more ∧ d.isDigit = true
  · obtain ⟨d, more, rfl, hd⟩ := hpoint
    have hsplit : ∀ more, splitFraction ('.' :: d :: more) =
        ('.' :: d :: more.takeWhile Char.isDigit, more.dropWhile Char.isDigit) := fun _ => if_pos hd
    rw [hsplit] at h ⊢
    obtain ⟨htake, hdrop⟩ := h.run fun _ => isDigit_of_isBlank
    rw [List.cons_append, List.cons_append, hsplit, htake, hdrop]
  · have hplain : ∀ d more, cs = '.' :: d :: more → d.isDigit = false := by
      intro d more hcs
      cases hd : d.isDigit with
      | false => rfl
      | true => exact absurd ⟨d, more, hcs, hd⟩ hpoint
    rw [splitFraction_of_head hplain] at h ⊢
    refine splitFraction_of_head fun d more hds => ?_
    cases hd : d.isDigit with
    | false => rfl
    | true =>
      -- The point and the digit would stand in the first text already.
      obtain ⟨rest, hcs⟩ := h.two hds (by decide) (isBlank_of_isDigit hd)
      rw [hplain d rest hcs] at hd
      cases hd

theorem splitNumber_loosened (h : Loosened (splitNumber cs).2 ds) :
    splitNumber ((splitNumber cs).1 ++ ds) = ((splitNumber cs).1, ds) := by
  unfold splitNumber at h ⊢
  dsimp only at h ⊢
  have hexponent := splitExponent_loosened h
  have hfraction := h.append (splitExponent (splitFraction (cs.dropWhile Char.isDigit)).2).1
  rw [splitExponent_append] at hfraction
  have hsplit := splitFraction_loosened hfraction
  have hdigits := hfraction.append (splitFraction (cs.dropWhile Char.isDigit)).1
  rw [splitFraction_append] at hdigits
  obtain ⟨htake, hdrop⟩ := hdigits.run fun _ => isDigit_of_isBlank
  simp only [List.append_assoc, htake, hdrop, hsplit, hexponent]

end Numbers

/-! ### Lexemes -/

/-- No quote closes the quoted text or the byte string that begins with `c`. -/
def Unended (c : Char) (cs : List Char) : Prop :=
  (c = '\'' ∨ c = '"') ∧ Quoted.IsOpen c cs ∨ opensBlob c cs = true ∧ Quoted.IsOpen '\'' (cs.drop 1)

section Lexemes

variable {c : Char} {cs ds : List Char}

private theorem ofPair_blank {d : Char} (h : isBlank d = true) : Symbol.ofPair? c d = none := by
  unfold Symbol.ofPair?
  split
  case h_8 => rfl
  all_goals exact absurd h (by decide)

/-- How far a lexeme reaches that is a symbol. -/
private def munchSymbol (c : Char) : List Char → List Char × List Char
  | [] => ([], [])
  | d :: rest => if (Symbol.ofPair? c d).isSome then ([d], rest) else ([], d :: rest)

private theorem munchSymbol_of_head (h : ∀ d, cs.head? = some d → Symbol.ofPair? c d = none) :
    munchSymbol c cs = ([], cs) := by
  cases cs with
  | nil => rfl
  | cons d cs => rw [munchSymbol, h d rfl, Option.isSome_none, if_neg Bool.false_ne_true]

/-- A pair is a pair again, and no blank makes up a pair with what stands in front of it. -/
private theorem munchSymbol_loosened (h : Loosened (munchSymbol c cs).2 ds) :
    munchSymbol c ((munchSymbol c cs).1 ++ ds) = ((munchSymbol c cs).1, ds) := by
  by_cases hpair : ∃ d more, cs = d :: more ∧ (Symbol.ofPair? c d).isSome = true
  · obtain ⟨d, more, rfl, hd⟩ := hpair
    have hmunch : ∀ more, munchSymbol c (d :: more) = ([d], more) := fun _ => if_pos hd
    rw [hmunch]
    exact hmunch ds
  · have hcs : ∀ d, cs.head? = some d → Symbol.ofPair? c d = none := by
      intro d hd
      obtain ⟨more, rfl⟩ := List.head?_eq_some_iff.1 hd
      exact Option.not_isSome_iff_eq_none.1 fun hsome => hpair ⟨d, more, rfl, hsome⟩
    rw [munchSymbol_of_head hcs] at h ⊢
    refine munchSymbol_of_head fun d hd => ?_
    cases hblank : isBlank d with
    | true => exact ofPair_blank hblank
    | false =>
      obtain ⟨more, hmore⟩ := List.head?_eq_some_iff.1 hd
      obtain ⟨rest, rfl⟩ := h.head hmore hblank
      exact hcs d rfl

private theorem munch_quoted (hquote : c = '\'' ∨ c = '"') (cs : List Char) : munch c cs = Quoted.untilClosing c cs :=
  if_pos hquote

private theorem opensBlob_eq (h : opensBlob c cs = true) :
    ∃ after, cs = '\'' :: after ∧ ∀ more, opensBlob c ('\'' :: more) = true ∧
      munch c ('\'' :: more) = ('\'' :: (Quoted.untilClosing '\'' more).1, (Quoted.untilClosing '\'' more).2) := by
  obtain ⟨hx, hhead⟩ := Bool.and_eq_true_iff.1 h
  obtain ⟨after, rfl⟩ := List.head?_eq_some_iff.1 (beq_iff_eq.1 hhead)
  have hopens : ∀ more, opensBlob c ('\'' :: more) = true := fun _ => Bool.and_eq_true_iff.2 ⟨hx, rfl⟩
  have hquote : ¬ (c = '\'' ∨ c = '"') := by
    rintro (rfl | rfl) <;> exact absurd hx (by decide)
  refine ⟨after, rfl, fun more => ⟨hopens more, ?_⟩⟩
  rw [munch, if_neg hquote, if_pos (hopens more)]
  rfl

private theorem closes_loosened {quote : Char} (hquote : isBlank quote = false) {s rest : List Char}
    (hcloses : Quoted.Closes quote cs s rest) (h : Loosened rest ds) :
    Quoted.untilClosing quote ((Quoted.untilClosing quote cs).1 ++ ds) = ((Quoted.untilClosing quote cs).1, ds) := by
  have hsame : Quoted.Closes quote (Quoted.encode quote s ++ [quote] ++ ds) s ds :=
    ⟨by rw [List.append_assoc]; rfl, h.head_ne hquote hcloses.single⟩
  rw [hcloses.untilClosing_eq]
  exact hsame.untilClosing_eq

/-- What is neither quoted nor a byte string is split off in one way for all texts with this first character, and
still is when what follows it is loosened. -/
private theorem exists_splitter (hquote : ¬ (c = '\'' ∨ c = '"')) :
    ∃ split : List Char → List Char × List Char, (∀ more, opensBlob c more = false → munch c more = split more) ∧
      ∀ {cs ds}, Loosened (split cs).2 ds → split ((split cs).1 ++ ds) = ((split cs).1, ds) := by
  by_cases hdigit : c.isDigit = true
  · refine ⟨splitNumber, fun more hmore => ?_, splitNumber_loosened⟩
    simp [munch, hquote, hmore, hdigit]
  by_cases hword : (isWordStart c || c == ':') = true
  · refine ⟨fun more => (more.takeWhile isWordChar, more.dropWhile isWordChar), fun more hmore => ?_, fun h => ?_⟩
    · simp only [munch, hquote, hmore, hdigit, hword, if_true, if_false, Bool.false_eq_true]
    · obtain ⟨htake, hdrop⟩ := Loosened.run (fun _ => isWordChar_of_isBlank) h
      exact Prod.ext htake hdrop
  by_cases hmark : c = '?'
  · refine ⟨fun more => (more.takeWhile Char.isDigit, more.dropWhile Char.isDigit), fun more _ => ?_, fun h => ?_⟩
    · subst hmark
      rfl
    · obtain ⟨htake, hdrop⟩ := Loosened.run (fun _ => isDigit_of_isBlank) h
      exact Prod.ext htake hdrop
  · refine ⟨munchSymbol c, fun more hmore => ?_, munchSymbol_loosened⟩
    simp only [munch, hquote, hmore, hdigit, hword, hmark, if_false, Bool.false_eq_true]
    cases more <;> rfl

/-- A lexeme that has ended before blanks are put in behind it ends there again. -/
theorem munch_loosened (hended : ¬ Unended c cs) (h : Loosened (munch c cs).2 ds) :
    munch c ((munch c cs).1 ++ ds) = ((munch c cs).1, ds) := by
  have hwhole := h.append (munch c cs).1
  rw [munch_append] at hwhole
  by_cases hquote : c = '\'' ∨ c = '"'
  · have hplain : isBlank c = false := by rcases hquote with rfl | rfl <;> decide
    rw [munch_quoted hquote] at h ⊢
    rw [munch_quoted hquote]
    rcases Quoted.closes_or_isOpen c cs with ⟨s, rest, hcloses⟩ | hopen
    · rw [hcloses.untilClosing_eq] at h
      exact closes_loosened hplain hcloses h
    · exact absurd (.inl ⟨hquote, hopen⟩) hended
  by_cases hblob : opensBlob c cs = true
  · obtain ⟨after, rfl, hmunch⟩ := opensBlob_eq hblob
    rw [(hmunch after).2] at h ⊢
    rw [List.cons_append, (hmunch _).2]
    rcases Quoted.closes_or_isOpen '\'' after with ⟨s, rest, hcloses⟩ | hopen
    · rw [hcloses.untilClosing_eq] at h
      rw [closes_loosened (by decide) hcloses h]
    · exact absurd (.inr ⟨hblob, hopen⟩) hended
  have hblob' : opensBlob c ((munch c cs).1 ++ ds) = false := by
    cases hopens : opensBlob c ((munch c cs).1 ++ ds) with
    | false => rfl
    | true =>
      obtain ⟨after, hds, hmunch⟩ := opensBlob_eq hopens
      obtain ⟨rest, rfl⟩ := hwhole.head hds (by decide)
      exact absurd (hmunch rest).1 hblob
  obtain ⟨split, hsplit, hloosened⟩ := exists_splitter hquote
  rw [hsplit cs (by simpa using hblob)] at h hblob' ⊢
  rw [hsplit _ hblob', hloosened h]

/-- What no quote closes reaches to the end of the text. -/
theorem Unended.munch_eq (h : Unended c cs) : munch c cs = (cs, []) := by
  rcases h with ⟨hquote, hopen⟩ | ⟨hblob, hopen⟩
  · rw [munch_quoted hquote, hopen.toEnd]
  · obtain ⟨after, rfl, hmunch⟩ := opensBlob_eq hblob
    have htoEnd : Quoted.untilClosing '\'' after = (after, []) := hopen.toEnd
    rw [(hmunch after).2, htoEnd]

theorem Unended.append {blanks : List Char} (h : Unended c cs) (hblanks : ∀ d ∈ blanks, isBlank d = true) :
    Unended c (cs ++ blanks) := by
  have hquotes : ∀ q, isBlank q = false → q ∉ blanks := by
    intro q hq hmem
    rw [hblanks q hmem] at hq
    cases hq
  rcases h with ⟨hquote, hopen⟩ | ⟨hblob, hopen⟩
  · refine .inl ⟨hquote, hopen.append (hquotes c ?_)⟩
    rcases hquote with rfl | rfl <;> decide
  · obtain ⟨after, rfl, hmunch⟩ := opensBlob_eq hblob
    exact .inr ⟨(hmunch _).1, hopen.append (hquotes _ (by decide))⟩

/-- What no quote closes is malformed in a way that its beginning decides. -/
theorem Unended.classify_eq (h : Unended c cs) : classify c cs =
    .malformed (if c = '\'' then .openString else if c = '"' then .openName else .openBlob) := by
  rcases h with ⟨rfl | rfl, hopen⟩ | ⟨hblob, hopen⟩
  · simp only [classify, hopen.undecoded, if_true]
  · simp only [classify, hopen.undecoded, if_true, show ¬ '"' = '\'' by decide, if_false]
  · have hquote : ¬ c = '\'' ∧ ¬ c = '"' := by
      have hx : (c == 'x' || c == 'X') = true := (Bool.and_eq_true_iff.1 hblob).1
      constructor <;> rintro rfl <;> exact absurd hx (by decide)
    simp only [classify, hquote, hblob, if_true, if_false, classifyBlob, hopen.undecoded]

end Lexemes

/-! ### Tokens -/

/-- Blanks are put in where tokens of the text start or end, or where it starts or ends itself. -/
private def AtEdges (allowed : Nat → Prop) (start : Nat) (cs : List Char) : Prop :=
  ∀ n, allowed n → start < n → start + width cs ≤ n ∨ ∃ t ∈ scanFrom start cs, n = t.span.start ∨ n = t.span.stop

/-- A lexeme is the same token when blanks are put in behind it. -/
private theorem kinds_lexeme_spaced {allowed : Nat → Prop} {n : Nat} {c : Char} {rest ds : List Char}
    (hblank : isBlank c = false) (hcomment : c = '-' → rest.head? ≠ some '-')
    (h : Spaced allowed n (munch c rest).2 ds) (hrest : kinds ds = kinds (munch c rest).2) :
    kinds (c :: ((munch c rest).1 ++ ds)) = classify c (munch c rest).1 :: kinds (munch c rest).2 := by
  by_cases hended : Unended c rest
  · rw [hended.munch_eq] at h ⊢
    have hmore := hended.append h.all_blank
    have hquote : c ≠ '-' := by
      rintro rfl
      rcases hended with ⟨hquote, -⟩ | ⟨hblob, -⟩
      · rcases hquote with hquote | hquote <;> cases hquote
      · cases hblob
    rw [kinds_lexeme hblank fun hc => absurd hc hquote, hmore.munch_eq, hmore.classify_eq, hended.classify_eq]
  · have hloose := h.loosened.append (munch c rest).1
    rw [munch_append] at hloose
    rw [kinds_lexeme hblank fun hc => hloose.head_ne (by decide) (hcomment hc), munch_loosened hended h.loosened, hrest]

/-- The edges of a text that has a token are the edges of this token and those of the text behind it. -/
private theorem AtEdges.cons {allowed : Nat → Prop} {start : Nat} {cs rest : List Char} {c : Char}
    (hcs : (splitTrivia false cs).2 = c :: rest) (h : AtEdges allowed start cs) :
    (∀ m, allowed m → start < m → start + width (splitTrivia false cs).1 ≤ m) ∧
      (∀ m, allowed m → start + width (splitTrivia false cs).1 < m →
        start + width (splitTrivia false cs).1 + width (c :: (munch c rest).1) ≤ m) ∧
      AtEdges allowed (start + width (splitTrivia false cs).1 + width (c :: (munch c rest).1)) (munch c rest).2 := by
  have hwidth : width cs = width (splitTrivia false cs).1 + (width (c :: (munch c rest).1) + width (munch c rest).2) := by
    rw [← width_append, ← width_append, List.cons_append, munch_append, ← hcs, splitTrivia_append]
  have hpos : 0 < width (c :: (munch c rest).1) := width_pos
  generalize hfirst : start + width (splitTrivia false cs).1 = first at *
  generalize hstop : first + width (c :: (munch c rest).1) = stop at *
  have hlaid := laid_scanFrom stop (munch c rest).2
  have hplaces : ∀ m, allowed m → start < m → m = first ∨ stop ≤ m ∧ (m = stop ∨ start + width cs ≤ m ∨
      ∃ t ∈ scanFrom stop (munch c rest).2, m = t.span.start ∨ m = t.span.stop) := by
    intro m hm hlt
    rcases h m hm hlt with hend | ⟨t, ht, hplace⟩
    · exact .inr ⟨by omega, .inr (.inl hend)⟩
    · rw [scanFrom_eq hcs, hfirst, hstop] at ht
      rcases List.mem_cons.1 ht with rfl | ht
      · rcases hplace with rfl | rfl
        · exact .inl rfl
        · exact .inr ⟨Nat.le_refl _, .inl rfl⟩
      · have hstart := hlaid.start_le t ht
        have hle := hlaid.start_le_stop t ht
        exact .inr ⟨by omega, .inr (.inr ⟨t, ht, hplace⟩)⟩
  refine ⟨fun m hm hlt => ?_, fun m hm hlt => ?_, fun m hm hlt => ?_⟩
  · rcases hplaces m hm hlt with rfl | ⟨hle, -⟩ <;> omega
  · rcases hplaces m hm (by omega) with rfl | ⟨hle, -⟩ <;> omega
  · rcases hplaces m hm (by omega) with rfl | ⟨-, rfl | hend | hlater⟩
    · omega
    · omega
    · exact .inl (by omega)
    · exact .inr hlater

/-- The tokens of a text stay the same when blanks are put in between them. -/
private theorem kinds_spaced (allowed : Nat → Prop) (start : Nat) (cs : List Char) :
    ∀ ds, Spaced allowed start cs ds → AtEdges allowed start cs → kinds ds = kinds cs := by
  fun_induction scanFrom start cs with
  | case1 start cs hcs =>
    intro ds h hedges
    have hgap := trivia_splitTrivia cs
    have hwhole := splitTrivia_append false cs
    rw [hcs, List.append_nil] at hwhole
    rw [hcs, hwhole] at hgap
    rw [← List.append_nil cs] at h
    have hnone : ∀ m, allowed m → start < m → start + width cs ≤ m := by
      intro m hm hlt
      rcases hedges m hm hlt with hend | ⟨t, ht, -⟩
      · exact hend
      · rw [scanFrom_eq_nil start hcs] at ht
        exact absurd ht List.not_mem_nil
    obtain ⟨blanks, rest', rfl, hblanks, hrest'⟩ := h.together hnone
    rw [kinds_blanks hblanks, (hgap.append_blanks hrest'.all_blank).kinds_gap, hgap.kinds_gap]
  | case2 start cs c rest hcs first stop ih =>
    intro ds h hedges
    have hgap := trivia_splitTrivia cs
    rw [hcs] at hgap
    obtain ⟨hblank, hcomment⟩ := head_splitTrivia hcs
    obtain ⟨hfirst, hlexeme, hlater⟩ := hedges.cons hcs
    have hwhole : (splitTrivia false cs).1 ++ (c :: (munch c rest).1 ++ (munch c rest).2) = cs := by
      rw [List.cons_append, munch_append, ← hcs, splitTrivia_append]
    rw [← hwhole] at h
    obtain ⟨blanks, behind, rfl, hblanks, hbehind⟩ := h.together hfirst
    obtain ⟨blanks', later, rfl, hblanks', hlater'⟩ := hbehind.together hlexeme
    rw [kinds_blanks hblanks, hgap.kinds_append, kinds_blanks hblanks', kinds_eq_cons hcs]
    exact kinds_lexeme_spaced hblank hcomment hlater' (ih later hlater' hlater)

/-! ### Whole texts -/

/-- A token of the text, or its end, starts or stops at the offset. -/
def IsEdge (text : String) (n : Nat) : Prop := ∃ t ∈ scanAll text, n = t.span.start ∨ n = t.span.stop

instance (text : String) : DecidablePred (IsEdge text) := fun n =>
  inferInstanceAs (Decidable (∃ t ∈ scanAll text, n = t.span.start ∨ n = t.span.stop))

/-- The second text is the first one with blanks put in where tokens start and stop. -/
def Respaced (text text' : String) : Prop := Spaced (IsEdge text) 0 text.toList text'.toList

instance (text text' : String) : Decidable (Respaced text text') :=
  inferInstanceAs (Decidable (Spaced (IsEdge text) 0 text.toList text'.toList))

namespace Respaced

variable {text text' : String} (h : Respaced text text')

include h

/-- The tokens of a text stay the same when blanks are put in where tokens start and stop. -/
theorem kinds_eq : kinds text'.toList = kinds text.toList := by
  refine kinds_spaced _ 0 text.toList _ h ?_
  rintro n ⟨t, ht, hplace⟩ -
  rcases mem_scanAll.1 ht with ht | rfl
  · exact .inr ⟨t, ht, hplace⟩
  · left
    rw [Nat.zero_add, width_toList]
    rcases hplace with rfl | rfl <;> exact Nat.le_refl _

theorem map_kind_scanAll : (scanAll text').map (·.kind) = (scanAll text).map (·.kind) := by
  rw [scanAll, scanAll, List.map_append, List.map_append]
  exact congrArg (· ++ [Kind.eof]) h.kinds_eq

end Respaced

end Token

end Clausal
