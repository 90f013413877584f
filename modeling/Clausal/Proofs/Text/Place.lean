import Clausal.Token.Basic

/-!
# Places in a text

Offsets count bytes. A run of characters stands between two offsets, so neither of them is inside a character, and
cutting the text at the first of them gives back what is in front of the run.
-/

namespace Clausal

namespace Text

theorem width_eq_utf8ByteSize (cs : List Char) : width cs = (String.ofList cs).utf8ByteSize := by
  induction cs with
  | nil => rfl
  | cons c cs ih => rw [width_cons, String.ofList_cons, String.utf8ByteSize_append, String.utf8ByteSize_singleton, ih]

theorem width_toList (text : String) : width text.toList = text.utf8ByteSize := by
  rw [width_eq_utf8ByteSize, String.ofList_toList]

/-- The offset is at the start of a character or at the end of the text. -/
def IsBoundary (text : String) (n : Nat) : Prop := String.Pos.Raw.IsValid text ⟨n⟩

theorem isBoundary_of_append {text : String} {before after : List Char} (h : text.toList = before ++ after) :
    IsBoundary text (width before) := by
  rw [IsBoundary, String.Pos.Raw.isValid_iff_exists_append]
  refine ⟨String.ofList before, String.ofList after, ?_, ?_⟩
  · rw [← String.ofList_append, ← h, String.ofList_toList]
  · rw [width_eq_utf8ByteSize]
    rfl

theorem isBoundary_zero (text : String) : IsBoundary text 0 :=
  isBoundary_of_append (List.nil_append text.toList).symm

theorem isBoundary_size (text : String) : IsBoundary text text.utf8ByteSize := by
  rw [← width_toList]
  exact isBoundary_of_append (List.append_nil text.toList).symm

/-- After its first bytes the text goes on with the characters, to its end. -/
def GoesOn (text : String) (start : Nat) (cs : List Char) : Prop :=
  ∃ before, text.toList = before ++ cs ∧ width before = start

theorem goesOn_start (text : String) : GoesOn text 0 text.toList := ⟨[], rfl, rfl⟩

theorem GoesOn.drop {text : String} {start : Nat} {cs rest : List Char} (h : GoesOn text start (cs ++ rest)) :
    GoesOn text (start + width cs) rest := by
  obtain ⟨before, htext, rfl⟩ := h
  exact ⟨before ++ cs, by rw [htext, List.append_assoc], width_append before cs⟩

theorem GoesOn.size_eq {text : String} {start : Nat} {cs : List Char} (h : GoesOn text start cs) :
    text.utf8ByteSize = start + width cs := by
  obtain ⟨before, htext, rfl⟩ := h
  rw [← width_toList, htext, width_append]

end Text

namespace Span

open Text

/-- The byte at an offset is one of the span. -/
def Covers (s : Span) (i : Nat) : Prop := s.start ≤ i ∧ i < s.stop

/-- The characters stand in the text from the start of the span to its end. -/
def Holds (s : Span) (text : String) (cs : List Char) : Prop :=
  ∃ before after, text.toList = before ++ cs ++ after ∧ s = ⟨width before, width before + width cs⟩

theorem holds_of_goesOn {text : String} {start : Nat} {cs rest : List Char} (h : GoesOn text start (cs ++ rest)) :
    Holds ⟨start, start + width cs⟩ text cs := by
  obtain ⟨before, htext, rfl⟩ := h
  exact ⟨before, rest, by rw [htext, List.append_assoc], rfl⟩

namespace Holds

variable {s : Span} {text : String} {cs : List Char} (h : s.Holds text cs)

include h

theorem start_lt_stop (hne : cs ≠ []) : s.start < s.stop := by
  obtain ⟨before, after, -, rfl⟩ := h
  obtain ⟨c, cs, rfl⟩ := List.exists_cons_of_ne_nil hne
  have hpos : 0 < width (c :: cs) := width_pos
  show width before < width before + width (c :: cs)
  omega

theorem stop_le : s.stop ≤ text.utf8ByteSize := by
  obtain ⟨before, after, htext, rfl⟩ := h
  rw [← width_toList, htext, width_append, width_append]
  exact Nat.le_add_right _ _

theorem isBoundary_start : IsBoundary text s.start := by
  obtain ⟨before, after, htext, rfl⟩ := h
  exact isBoundary_of_append (htext.trans (List.append_assoc _ _ _))

theorem isBoundary_stop : IsBoundary text s.stop := by
  obtain ⟨before, after, htext, rfl⟩ := h
  have hstop := isBoundary_of_append htext
  rwa [width_append] at hstop

/-- Only one run of characters stands in a span. -/
theorem unique {ds : List Char} (h' : s.Holds text ds) : cs = ds := by
  obtain ⟨before, after, htext, rfl⟩ := h
  obtain ⟨before', after', htext', hspan⟩ := h'
  obtain ⟨hstart, hstop⟩ := Span.mk.inj hspan
  have hcut : splitBytes (width before) text.toList = (before, cs ++ after) := by
    rw [htext, List.append_assoc, splitBytes_width]
  have hcut' : splitBytes (width before) text.toList = (before', ds ++ after') := by
    rw [hstart, htext', List.append_assoc, splitBytes_width]
  have hrest : cs ++ after = ds ++ after' := congrArg Prod.snd (hcut.symm.trans hcut')
  have hwidth : width cs = width ds := by omega
  have hlexeme : splitBytes (width cs) (cs ++ after) = (ds, after') := by rw [hrest, hwidth, splitBytes_width]
  rw [splitBytes_width] at hlexeme
  exact congrArg Prod.fst hlexeme

end Holds

/-- Where a text is cut at the start of a character, the cut is just there and nothing is lost. -/
theorem split_of_isBoundary {s : Span} {text : String} (h : IsBoundary text s.start) :
    (s.split text).1 ++ (s.split text).2 = text ∧ (s.split text).1.utf8ByteSize = s.start := by
  obtain ⟨t, u, rfl, hstart⟩ := String.Pos.Raw.isValid_iff_exists_append.1 h
  have hwidth : s.start = width t.toList := by
    rw [width_toList]
    exact congrArg String.Pos.Raw.byteIdx hstart
  have hsplit : s.split (t ++ u) = (t, u) := by
    simp only [split, hwidth, String.toList_append, splitBytes_width, String.ofList_toList]
  rw [hsplit, hwidth, width_toList]
  exact ⟨rfl, rfl⟩

end Span

end Clausal
