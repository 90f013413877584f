import Clausal.Proofs.Parse.Elsewhere
import Clausal.Proofs.Parse.Known
import Clausal.Proofs.Statement.Failure
import Clausal.Proofs.Statement.FixedPoint
import Clausal.Proofs.Token.Layout

/-!
# Layout does not decide about statements

Where the tokens of a text stand decides nothing about what is read: from tokens of the same kinds the same statement
is read, or reading fails for the same reason. So a text may be laid out in any way that leaves its tokens alone.
-/

namespace Clausal

namespace Parse

/-! ### Tokens of the same kinds -/

private theorem parallel_kinds : Parallel fun ts us => ts.map (·.kind) = us.map (·.kind) where
  nil h := List.map_eq_nil_iff.1 h.symm
  cons {t ts us} h := by
    cases us with
    | nil => cases h
    | cons u us =>
      obtain ⟨hkind, hrest⟩ := List.cons.inj h
      exact ⟨u, us, rfl, hkind, hrest⟩

private theorem moreSegments_kinds {ts us : List Token} (h : ts.map (·.kind) = us.map (·.kind)) :
    (moreSegments ts).1 = (moreSegments us).1 ∧
      (moreSegments ts).2.map (·.kind) = (moreSegments us).2.map (·.kind) := by
  fun_induction moreSegments ts generalizing us with
  | case1 dot name position rest segments left hmore ih =>
    obtain ⟨⟨_, _⟩, us, rfl, hdot, hmoreKinds⟩ := parallel_kinds.cons h
    obtain ⟨⟨_, _⟩, us, rfl, hname, hrest⟩ := parallel_kinds.cons hmoreKinds
    obtain rfl := hdot
    obtain rfl := hname
    have hboth := ih hrest
    rw [hmore] at hboth
    rw [moreSegments]
    exact ⟨congrArg (name :: ·) hboth.1, hboth.2⟩
  | case2 ts hnone =>
    have hstop : moreSegments us = ([], us) := by
      unfold moreSegments
      split
      · rename_i dot name position rest
        obtain ⟨⟨_, first⟩, ts, rfl, hdot, hmoreKinds⟩ := parallel_kinds.cons h.symm
        obtain ⟨⟨_, second⟩, ts, rfl, hname, -⟩ := parallel_kinds.cons hmoreKinds
        obtain rfl := hdot
        obtain rfl := hname
        exact (hnone first name second ts rfl).elim
      · rfl
    rw [hstop]
    exact ⟨rfl, h⟩

/-- Cursors at tokens of the same kinds, where the same aliases are bound. -/
private def relocated (stop stop' : Nat) : Comparison :=
  elsewhere parallel_kinds (fun m n => ∀ a, m.contains a = n.contains a) stop stop'

private theorem steady_relocated (stop stop' : Nat) : (relocated stop stop').Steady fun _ _ => True where
  span _ := trivial
  fails _ _ := rfl
  bound h := h.2.1
  rebind h _ _ hbound := ⟨h.1, hbound, h.2.2⟩
  segments h := ⟨(moreSegments_kinds h.1).1, (moreSegments_kinds h.1).2, h.2⟩
  expression := by
    have hresolve : ∀ m n : Aliases, (∀ a, m.contains a = n.contains a) → ∀ segments,
        Path.resolve n ⟨none, segments⟩ = id (Path.resolve m ⟨none, segments⟩) := by
      intro m n hbound segments
      rw [Path.resolve_congr hbound]
      rfl
    refine (Compared.expressionAbove parallel_kinds hresolve 0).mono fun e e' he => ?_
    rw [he, Expr.mapPaths_id]

private theorem insertedValues_relocated (stop stop' : Nat) :
    Compared (relocated stop stop') Eq insertedValues insertedValues :=
  Compared.place.bind (f := valuesAfter) (g := valuesAfter) fun _ _ _ =>
    (steady_relocated stop stop').valuesAfter fun _ _ => rfl

end Parse

/-- From tokens of the same kinds the same body is read, or reading fails for the same reason. -/
theorem Body.parse_of_kinds (ctx : Parse.Context) {text text' : String}
    (h : Token.kinds text.toList = Token.kinds text'.toList) :
    Parse.Matched Parse.Failure.SameFault Eq (parse ctx text) (parse ctx text') := by
  have hboth := (Parse.steady_relocated _ _).wholeBody ctx (Parse.insertedValues_relocated _ _) (.ofText text)
    (.ofText text') ⟨h, fun _ => rfl, rfl, rfl⟩
  -- The second text is read where nothing is known, which comes to the same.
  rw [parse_eq_known ctx text']
  unfold parse
  change Parse.Matched _ _ (Parse.wholeBody ctx _) (Parse.wholeBody .empty _) at hboth
  generalize Parse.wholeBody ctx (.ofText text) = left at hboth ⊢
  generalize Parse.wholeBody .empty (.ofText text') = right at hboth ⊢
  cases hboth with
  | failed hfault => exact .failed hfault
  | given hb => exact .given hb.1

namespace Statement

/-- From tokens of the same kinds the same statement is read, or reading fails for the same reason. -/
theorem read_of_kinds (ctx : Parse.Context) {text text' : String}
    (h : Token.kinds text.toList = Token.kinds text'.toList) :
    Parse.Matched Parse.Failure.SameFault Eq (read ctx text) (read ctx text') := by
  have hboth := Body.parse_of_kinds ctx h
  unfold read
  generalize Body.parse ctx text = left at hboth ⊢
  generalize Body.parse ctx text' = right at hboth ⊢
  cases hboth with
  | failed hfault => exact .failed hfault
  | @given b b' hb =>
    obtain rfl := hb
    dsimp only
    split
    · exact .given rfl
    · exact .failed rfl

/-- Both texts are refused with one wording, where the same was expected and the same was found, or both are accepted
as statements that are equal. -/
def ParsesAlike (ctx : Parse.Context) (text text' : String) : Prop :=
  (∃ e e', parse ctx text = .error e ∧ parse ctx text' = .error e' ∧ e'.fault = e.fault ∧
      e'.fault.message = e.fault.message ∧ e'.fault.expected? = e.fault.expected? ∧
      e'.fault.found? = e.fault.found?) ∨
    ∃ s s', parse ctx text = .ok s ∧ parse ctx text' = .ok s' ∧ s' = s ∧ (s == s') = true

theorem parsesAlike_of_kinds (ctx : Parse.Context) {text text' : String}
    (h : Token.kinds text.toList = Token.kinds text'.toList) : ParsesAlike ctx text text' := by
  have hboth := read_of_kinds ctx h
  unfold ParsesAlike parse
  generalize read ctx text = left at hboth ⊢
  generalize read ctx text' = right at hboth ⊢
  cases hboth with
  | @failed f f' hfault =>
    have hsame : f'.fault = f.fault := hfault.symm
    exact .inl ⟨_, _, rfl, rfl, hsame, congrArg _ hsame, congrArg _ hsame, congrArg _ hsame⟩
  | @given s s' hs =>
    obtain rfl := hs
    exact .inr ⟨s, s, rfl, rfl, rfl, s.beq_self⟩

/-- Blanks that are put in where tokens of a text start and stop change neither its tokens nor what it is read as. -/
theorem parsesAlike_of_respaced (ctx : Parse.Context) {text text' : String} (h : Token.Respaced text text') :
    (Token.scanAll text').map (·.kind) = (Token.scanAll text).map (·.kind) ∧ ParsesAlike ctx text text' :=
  ⟨h.map_kind_scanAll, parsesAlike_of_kinds ctx h.kinds_eq.symm⟩

private def denseText : String := "SELECT *FROM t WHERE a<=-1e5AND b='it''s'--c"

private def airyText : String := "\tSELECT  * FROM t WHERE a <= - 1e5 AND b = 'it''s' --c\n "

private def openText : String := "DELETE FROM t WHERE t.x<>'oops"

private def openAiryText : String := " DELETE FROM t WHERE t . x <> 'oops \n"

/-- A text that is accepted, with a comment at its end, and one that is refused because a string is not closed. -/
theorem parsesAlike_airy :
    (∃ s, parse .empty denseText = .ok s ∧ parse .empty airyText = .ok s) ∧
      ∃ e e', parse .empty openText = .error e ∧ parse .empty openAiryText = .error e' ∧
        e.fault = .malformed .openString ∧ e'.fault.message = e.fault.message := by
  obtain ⟨-, haccepted⟩ := parsesAlike_of_respaced .empty
    (show Token.Respaced denseText airyText by decide +kernel)
  obtain ⟨-, hrefused⟩ := parsesAlike_of_respaced .empty
    (show Token.Respaced openText openAiryText by decide +kernel)
  constructor
  · obtain ⟨s, hs, -⟩ := exists_of_accepted (fun _ => true)
      (show (parse .empty denseText).toOption.any _ = true by decide +kernel)
    rcases haccepted with ⟨e, e', he, -⟩ | ⟨t, t', ht, ht', rfl, -⟩
    · cases he.symm.trans hs
    · exact ⟨t', ht, ht'⟩
  · have hopen : ∃ e, parse .empty openText = .error e ∧ decide (e.fault = .malformed .openString) = true :=
      exists_of_refused _ (by decide +kernel)
    obtain ⟨e, he, hfault⟩ := hopen
    rcases hrefused with ⟨f, f', hf, hf', -, hmessage, -⟩ | ⟨s, s', hs, -⟩
    · cases he.symm.trans hf
      exact ⟨e, f', he, hf', of_decide_eq_true hfault, hmessage⟩
    · cases he.symm.trans hs

end Statement

end Clausal
