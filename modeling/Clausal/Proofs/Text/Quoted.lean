import Clausal.Text.Quoted

/-!
# Where quoted text ends

After an opening quote a text either goes on with an encoded text and a quote that is not doubled, which close it, or
nothing closes it. In the first case that text is what is decoded, in the second everything up to the end belongs to
the quoted text and nothing is decoded.
-/

namespace Clausal.Text.Quoted

/-- The encoding of `s` and a closing quote stand at the front, and `rest` is what is left. -/
structure Closes (quote : Char) (cs s rest : List Char) : Prop where
  whole : cs = encode quote s ++ quote :: rest
  /-- The closing quote is not doubled. -/
  single : rest.head? ≠ some quote

/-- No quote closes the text. -/
structure IsOpen (quote : Char) (cs : List Char) : Prop where
  toEnd : untilClosing quote cs = (cs, [])
  undecoded : decode quote cs = none

namespace Closes

variable {quote : Char} {cs s rest : List Char} (h : Closes quote cs s rest)

include h

theorem untilClosing_eq : untilClosing quote cs = (encode quote s ++ [quote], rest) := by
  rw [h.whole]
  exact untilClosing_encode quote s rest h.single

theorem decode_eq : decode quote (untilClosing quote cs).1 = some s := by
  rw [h.untilClosing_eq]
  exact decode_encode quote s

theorem not_isOpen : ¬ IsOpen quote cs := by
  intro hopen
  have hdecode := h.decode_eq
  rw [hopen.toEnd, hopen.undecoded] at hdecode
  cases hdecode

end Closes

theorem closes_or_isOpen (quote : Char) (cs : List Char) :
    (∃ s rest, Closes quote cs s rest) ∨ IsOpen quote cs := by
  fun_induction untilClosing quote cs with
  | case1 => exact .inr ⟨rfl, rfl⟩
  | case2 c =>
    by_cases hc : c = quote
    · exact .inl ⟨[], [], by rw [hc]; rfl, by simp⟩
    · exact .inr ⟨rfl, if_neg hc⟩
  | case3 rest inside after hrest ih =>
    rcases ih with ⟨s, after', h⟩ | h
    · exact .inl ⟨quote :: s, after', by rw [h.whole, encode, if_pos rfl]; rfl, h.single⟩
    · refine .inr ⟨?_, ?_⟩
      · simp only [untilClosing, if_true, h.toEnd]
      · simp only [decode, if_true, h.undecoded, Option.map_none]
  | case4 d rest hd => exact .inl ⟨[], d :: rest, rfl, by simpa using hd⟩
  | case5 c d rest hc inside after hrest ih =>
    rcases ih with ⟨s, after', h⟩ | h
    · exact .inl ⟨c :: s, after', by rw [h.whole, encode, if_neg hc]; rfl, h.single⟩
    · refine .inr ⟨?_, ?_⟩
      · simp only [untilClosing, hc, if_false, h.toEnd]
      · simp only [decode, hc, if_false, h.undecoded, Option.map_none]

/-- The text that is quoted is determined by what follows the opening quote. -/
theorem Closes.eq {quote : Char} {cs s s' rest rest' : List Char} (h : Closes quote cs s rest)
    (h' : Closes quote cs s' rest') : s = s' ∧ rest = rest' :=
  ⟨Option.some.inj (h.decode_eq.symm.trans h'.decode_eq),
    (Prod.mk.inj (h.untilClosing_eq.symm.trans h'.untilClosing_eq)).2⟩

/-- A text that no quote closes is not closed by more text without quotes. -/
theorem IsOpen.append {quote : Char} {cs ds : List Char} (h : IsOpen quote cs) (hds : quote ∉ ds) :
    IsOpen quote (cs ++ ds) := by
  rcases closes_or_isOpen quote (cs ++ ds) with ⟨s, rest, hcloses⟩ | hopen
  · -- The closing quote would be one of the first text, which it would then close.
    have hwhole : cs ++ ds = encode quote s ++ [quote] ++ rest := by rw [hcloses.whole, List.append_assoc]; rfl
    refine absurd h (?_ : ¬ IsOpen quote cs)
    rcases List.append_eq_append_iff.1 hwhole with ⟨more, hclosing, hrest⟩ | ⟨after, hbefore, hrest⟩
    · rcases List.eq_nil_or_concat more with rfl | ⟨front, last, rfl⟩
      · have hfront : Closes quote cs s [] := ⟨by rw [hclosing, List.append_nil], by simp⟩
        exact hfront.not_isOpen
      · rw [List.concat_eq_append, ← List.append_assoc] at hclosing
        obtain ⟨-, hlast⟩ := List.append_inj' hclosing rfl
        obtain rfl : quote = last := (List.cons.inj hlast).1
        rw [hrest] at hds
        simp at hds
    · have hfront : Closes quote cs s after := by
        refine ⟨by rw [hbefore, List.append_assoc]; rfl, fun hhead => hcloses.single ?_⟩
        cases after with
        | nil => cases hhead
        | cons d after =>
          rw [hrest]
          exact hhead
      exact hfront.not_isOpen
  · exact hopen

end Clausal.Text.Quoted
