import Clausal.Proofs.Parse.Known
import Clausal.Proofs.Token.Tiling

/-!
# Where a text fails

An error stands at a token of its text, or it stands for the whole text if the statement is not sound. It cuts the
text where it stands, so nothing of the text is lost, and what it found there is the token that starts there.
-/

namespace Clausal

open Text (IsBoundary)
open Token (scanAll)

/-- The span lies in the text and cuts no character. -/
structure Span.FitsIn (s : Span) (text : String) : Prop where
  inOrder : s.start ≤ s.stop
  inText : s.stop ≤ text.utf8ByteSize
  boundary : IsBoundary text s.start ∧ IsBoundary text s.stop

theorem Span.fitsIn_whole (text : String) : FitsIn ⟨0, text.utf8ByteSize⟩ text where
  inOrder := Nat.zero_le _
  inText := Nat.le_refl _
  boundary := ⟨Text.isBoundary_zero text, Text.isBoundary_size text⟩

namespace Parse.Failure.StandsIn

variable {f : Parse.Failure} {text : String} (h : f.StandsIn (scanAll text))

include h

theorem exists_start : ∃ t ∈ scanAll text, t.span.start = f.span.start ∧ ∀ k, f.fault.found? = some k → t.kind = k := by
  obtain ⟨t, ts, u, hsuffix, -, hspan, hkind⟩ := h
  exact ⟨t, hsuffix.mem List.mem_cons_self, by rw [hspan], hkind⟩

theorem fitsIn : f.span.FitsIn text := by
  obtain ⟨t, ts, u, hsuffix, hu, hspan, -⟩ := h
  have ht : t ∈ scanAll text := hsuffix.mem List.mem_cons_self
  have hlast : u ∈ scanAll text := hsuffix.mem hu
  have hle : t.span.start ≤ u.span.stop := by
    rcases List.mem_cons.1 hu with rfl | hlater
    · exact Token.start_le_stop_scanAll ht
    · -- A later token begins after the first one has ended.
      have hbehind := List.rel_of_pairwise_cons ((Token.pairwise_scanAll text).sublist hsuffix.sublist) hlater
      have hfirst := Token.start_le_stop_scanAll ht
      have hsecond := Token.start_le_stop_scanAll hlast
      omega
  rw [hspan]
  exact ⟨hle, Token.stop_le_scanAll hlast, (Token.isBoundary_scanAll ht).1, (Token.isBoundary_scanAll hlast).2⟩

end Parse.Failure.StandsIn

namespace Statement

/-- The text is well formed but the statement is not sound, and the failure stands for the whole text. -/
def RejectedAs (ctx : Parse.Context) (text : String) (f : Parse.Failure) : Prop :=
  ∃ b error, Body.parse ctx text = .ok b ∧ ofBody b = .error error ∧ f = ⟨.rejected error, ⟨0, text.utf8ByteSize⟩⟩

theorem read_eq_error {ctx : Parse.Context} {text : String} {f : Parse.Failure} (h : read ctx text = .error f) :
    f.StandsIn (scanAll text) ∨ RejectedAs ctx text f := by
  unfold read at h
  split at h
  · rename_i hparse
    cases h
    exact .inl (Body.standsIn_of_parse_eq_error hparse)
  · rename_i b hparse
    split at h
    · cases h
    · rename_i error herror
      cases h
      refine .inr ⟨b, error, hparse, herror, ?_⟩
      rw [← Text.width_toList]
      rfl

theorem fitsIn_of_read_eq_error {ctx : Parse.Context} {text : String} {f : Parse.Failure}
    (h : read ctx text = .error f) : f.span.FitsIn text := by
  rcases read_eq_error h with hstands | ⟨b, error, -, -, rfl⟩
  · exact hstands.fitsIn
  · exact Span.fitsIn_whole text

theorem found_of_read_eq_error {ctx : Parse.Context} {text : String} {f : Parse.Failure} (h : read ctx text = .error f)
    {k : Token.Kind} (hfound : f.fault.found? = some k) :
    ∃ t ∈ scanAll text, t.span.start = f.span.start ∧ t.kind = k ∧
      ∀ u ∈ scanAll text, u.span.start = f.span.start → u = t := by
  rcases read_eq_error h with hstands | ⟨b, error, -, -, rfl⟩
  · obtain ⟨t, ht, hstart, hkind⟩ := hstands.exists_start
    exact ⟨t, ht, hstart, hkind k hfound, fun u hu hu' => Token.eq_of_start_eq hu ht (hu'.trans hstart.symm)⟩
  · cases hfound

theorem parse_eq_error {ctx : Parse.Context} {text : String} {e : ParseError} (h : parse ctx text = .error e) :
    ∃ f, read ctx text = .error f ∧ e = .ofFailure text f := by
  unfold parse at h
  cases hread : read ctx text with
  | ok s =>
    rw [hread] at h
    cases h
  | error f =>
    rw [hread] at h
    cases h
    exact ⟨f, rfl, rfl⟩

end Statement

/-- The error tells where its text fails, and what stands there. -/
structure ParseError.Locates (ctx : Parse.Context) (text : String) (e : ParseError) : Prop where
  whole : e.parsed ++ e.remaining = text
  /-- The text is cut exactly where the error stands. -/
  cut : e.parsed.utf8ByteSize = e.span.start
  fits : e.span.FitsIn text
  place : (∃ t ∈ scanAll text, t.span.start = e.span.start) ∨ Statement.RejectedAs ctx text ⟨e.fault, e.span⟩
  expected_iff_found : e.fault.expected?.isSome ↔ e.fault.found?.isSome
  /-- What was found is the token that starts there. -/
  found : ∀ k, e.fault.found? = some k →
    ∃ t ∈ scanAll text, t.span.start = e.span.start ∧ t.kind = k ∧
      ∀ u ∈ scanAll text, u.span.start = e.span.start → u = t
  atEnd : e.fault.found? = some .eof → e.span.start = text.utf8ByteSize

namespace Statement

/-- Whenever a text is not a statement, the error tells where and why. -/
theorem locates_of_parse_eq_error {ctx : Parse.Context} {text : String} {e : ParseError}
    (h : parse ctx text = .error e) : e.Locates ctx text := by
  obtain ⟨f, hread, rfl⟩ := parse_eq_error h
  have hfits : f.span.FitsIn text := fitsIn_of_read_eq_error hread
  have hcut := Span.split_of_isBoundary hfits.boundary.1
  refine ⟨hcut.1, hcut.2, hfits, ?_, ?_, fun k => found_of_read_eq_error hread, fun hend => ?_⟩
  · refine (read_eq_error hread).imp_left fun hstands => ?_
    obtain ⟨t, ht, hstart, -⟩ := hstands.exists_start
    exact ⟨t, ht, hstart⟩
  · show f.fault.expected?.isSome ↔ f.fault.found?.isSome
    cases f.fault <;> rfl
  · obtain ⟨t, ht, hstart, hkind, -⟩ := found_of_read_eq_error hread hend
    rw [Token.eq_of_kind_eof ht hkind] at hstart
    exact hstart.symm

private def unfinishedText : String := "DELETE FROM Person é WHERE é.größe > -- 7€"

private def infiniteText : String := "UPDATE Straße s WHERE s.länge < 1e999"

theorem exists_of_refused {text : String} (p : ParseError → Bool)
    (h : (match parse .empty text with | .error e => p e | .ok _ => false) = true) :
    ∃ e, parse .empty text = .error e ∧ p e = true := by
  cases hparse : parse .empty text with
  | error e =>
    rw [hparse] at h
    exact ⟨e, rfl, h⟩
  | ok s =>
    rw [hparse] at h
    cases h

/-- A text that ends too early, after a comment, and one that is well formed but has a number that is not finite. -/
theorem locates_of_parse_refused :
    (∃ e, parse .empty unfinishedText = .error e ∧ e.fault.found? = some .eof ∧ e.Locates .empty unfinishedText) ∧
      ∃ e, parse .empty infiniteText = .error e ∧ e.span = ⟨0, 39⟩ ∧ e.Locates .empty infiniteText := by
  constructor
  · obtain ⟨e, he, hfound⟩ := exists_of_refused (fun e => decide (e.fault.found? = some .eof))
      (show (match parse .empty unfinishedText with | .error e => _ | .ok _ => false) = true by decide +kernel)
    exact ⟨e, he, of_decide_eq_true hfound, locates_of_parse_eq_error he⟩
  · obtain ⟨e, he, hspan⟩ := exists_of_refused (fun e => decide (e.span = ⟨0, 39⟩))
      (show (match parse .empty infiniteText with | .error e => _ | .ok _ => false) = true by decide +kernel)
    exact ⟨e, he, of_decide_eq_true hspan, locates_of_parse_eq_error he⟩

end Statement

end Clausal
