import Mathlib.Data.List.Nodup
import Clausal.Proofs.Text.Place
import Clausal.Proofs.Token.Names

/-!
# Tokens tile the text

Every byte of a text belongs to one token or to what stands between two tokens, which is made of blanks and
comments. The scanner cuts a text into a gap, a lexeme and the text after them; that the pieces make up the text
gives the places of all tokens by induction.
-/

namespace Clausal.Token

open Text

/-! ### Gaps -/

/-- Blanks and comments. A comment ends with its line, or with the text if the gap is the final one. -/
inductive Trivia (final : Bool) : List Char → Prop where
  | nil : Trivia final []
  | blank {c : Char} {cs : List Char} (h : isBlank c = true) (rest : Trivia final cs) : Trivia final (c :: cs)
  | comment {line cs : List Char} (h : '\n' ∉ line) (rest : Trivia final cs) :
    Trivia final ('-' :: '-' :: (line ++ '\n' :: cs))
  | unended {line : List Char} (h : '\n' ∉ line) (hfinal : final = true) : Trivia final ('-' :: '-' :: line)

private theorem splitTrivia_line {line : List Char} (h : '\n' ∉ line) (cs : List Char) :
    splitTrivia true (line ++ '\n' :: cs) = (line ++ '\n' :: (splitTrivia false cs).1, (splitTrivia false cs).2) := by
  induction line with
  | nil => rfl
  | cons c line ih =>
    obtain ⟨hc, hline⟩ := not_or.1 (mt List.mem_cons.2 h)
    have hopen : (c != '\n') = true := bne_iff_ne.2 (Ne.symm hc)
    simp only [List.cons_append, splitTrivia, if_true, hopen, ih hline]

private theorem splitTrivia_lastLine {line : List Char} (h : '\n' ∉ line) : splitTrivia true line = (line, []) := by
  induction line with
  | nil => rfl
  | cons c line ih =>
    obtain ⟨hc, hline⟩ := not_or.1 (mt List.mem_cons.2 h)
    have hopen : (c != '\n') = true := bne_iff_ne.2 (Ne.symm hc)
    simp only [splitTrivia, if_true, hopen, ih hline]

/-- What is passed over in front of a token is a gap, and it is the final one if no token follows. -/
theorem trivia_splitTrivia (cs : List Char) :
    Trivia (splitTrivia false cs).2.isEmpty (splitTrivia false cs).1 := by
  induction hn : cs.length using Nat.strongRecOn generalizing cs with
  | ind n ih =>
    cases cs with
    | nil => exact .nil
    | cons c cs =>
      unfold splitTrivia
      split
      · contradiction
      split
      · rename_i hblank
        exact .blank hblank (ih cs.length (by rw [← hn]; exact Nat.lt_succ_self _) cs rfl)
      split
      · -- A comment is passed at once: the induction goes on behind its line.
        rename_i hcomment
        obtain ⟨hc, hhead⟩ := Bool.and_eq_true_iff.1 hcomment
        obtain rfl : c = '-' := beq_iff_eq.1 hc
        obtain ⟨cs, rfl⟩ : ∃ ds, cs = '-' :: ds := by
          cases cs with
          | nil => cases hhead
          | cons d ds => exact ⟨ds, by rw [Option.some.inj (beq_iff_eq.1 hhead)]⟩
        by_cases hline : '\n' ∈ cs
        · obtain ⟨line, rest, rfl, hfirst⟩ := List.eq_append_cons_of_mem hline
          have hopen : '\n' ∉ '-' :: line := by simp [hfirst]
          have hsplit := splitTrivia_line hopen rest
          rw [List.cons_append] at hsplit
          rw [hsplit]
          refine .comment hfirst (ih rest.length ?_ rest rfl)
          rw [← hn]
          simp only [List.length_cons, List.length_append]
          omega
        · have hopen : '\n' ∉ '-' :: cs := by simp [hline]
          rw [splitTrivia_lastLine hopen]
          exact .unended hline rfl
      · exact .nil

private theorem kinds_comment {line : List Char} (h : '\n' ∉ line) (cs : List Char) :
    kinds ('-' :: '-' :: (line ++ '\n' :: cs)) = kinds cs := by
  have hopen : '\n' ∉ '-' :: line := by simp [h]
  have hsplit := splitTrivia_line hopen cs
  rw [List.cons_append] at hsplit
  refine kinds_congr ?_
  show (splitTrivia true ('-' :: (line ++ '\n' :: cs))).2 = _
  rw [hsplit]

namespace Trivia

variable {gap : List Char}

/-- A gap in front of a text is passed over. -/
theorem kinds_append (h : Trivia false gap) (cs : List Char) : kinds (gap ++ cs) = kinds cs := by
  induction h with
  | nil => rfl
  | blank hblank rest ih => rw [List.cons_append, kinds_blank _ hblank, ih]
  | comment hline rest ih =>
    rw [List.cons_append, List.cons_append, List.append_assoc, List.cons_append, kinds_comment hline, ih]
  | unended hline hfinal => cases hfinal

theorem kinds_gap {final : Bool} (h : Trivia final gap) : kinds gap = [] := by
  induction h with
  | nil => exact kinds_nil
  | blank hblank rest ih => rw [kinds_blank _ hblank, ih]
  | comment hline rest ih => rw [kinds_comment hline, ih]
  | @unended line hline hfinal =>
    have hopen : '\n' ∉ '-' :: line := by simp [hline]
    refine kinds_eq_nil ?_
    show (splitTrivia true ('-' :: line)).2 = []
    rw [splitTrivia_lastLine hopen]

/-- Blanks behind the final gap belong to it. -/
theorem append_blanks (h : Trivia true gap) {blanks : List Char} (hblanks : ∀ c ∈ blanks, isBlank c = true) :
    Trivia true (gap ++ blanks) := by
  have hall : ∀ {bs : List Char}, (∀ c ∈ bs, isBlank c = true) → Trivia true bs := by
    intro bs hbs
    induction bs with
    | nil => exact .nil
    | cons c bs ih =>
      obtain ⟨hc, hmore⟩ := List.forall_mem_cons.1 hbs
      exact .blank hc (ih hmore)
  induction h with
  | nil => exact hall hblanks
  | blank hblank rest ih => exact .blank hblank ih
  | comment hline rest ih =>
    rw [List.cons_append, List.cons_append, List.append_assoc, List.cons_append]
    exact .comment hline ih
  | @unended line hline hfinal =>
    rw [List.cons_append, List.cons_append]
    by_cases hbreak : '\n' ∈ blanks
    · -- The first line break that is put in ends the comment.
      obtain ⟨before, after, rfl, hfirst⟩ := List.eq_append_cons_of_mem hbreak
      rw [← List.append_assoc]
      refine .comment (by simp [hline, hfirst]) (hall fun c hc => hblanks c ?_)
      exact List.mem_append_right _ (List.mem_cons_of_mem _ hc)
    · exact .unended (by simp [hline, hbreak]) hfinal

end Trivia

/-! ### Tokens and gaps -/

/-- The tokens stand one after the other in a text that begins at an offset, with gaps between them. -/
inductive Laid : Nat → List Char → List Token → Prop where
  | nil {start : Nat} {gap : List Char} (hgap : Trivia true gap) : Laid start gap []
  | cons {start : Nat} {gap lexeme rest : List Char} {kind : Kind} {ts : List Token} (hgap : Trivia false gap)
    (hlexeme : lexeme ≠ []) (hkind : kind ≠ .eof)
    (hrest : Laid (start + width gap + width lexeme) rest ts) :
    Laid start (gap ++ lexeme ++ rest)
      (⟨kind, ⟨start + width gap, start + width gap + width lexeme⟩⟩ :: ts)

theorem laid_scanFrom (start : Nat) (cs : List Char) : Laid start cs (scanFrom start cs) := by
  have hgap := trivia_splitTrivia cs
  fun_induction scanFrom start cs with
  | case1 start cs hcs =>
    have hsplit := splitTrivia_append false cs
    rw [hcs, List.append_nil] at hsplit
    rw [hcs, hsplit] at hgap
    exact .nil hgap
  | case2 start cs c rest hcs first stop ih =>
    have hsplit : (splitTrivia false cs).1 ++ c :: (munch c rest).1 ++ (munch c rest).2 = cs := by
      rw [List.append_assoc, List.cons_append, munch_append, ← hcs, splitTrivia_append]
    rw [hcs] at hgap
    have hlaid : Laid start (_ ++ c :: _ ++ _) _ :=
      .cons hgap (List.cons_ne_nil c _) (classify_ne_eof c (munch c rest).1) (ih (trivia_splitTrivia _))
    rwa [hsplit] at hlaid

/-! ### The whole text -/

/-- Every token with the gap in front of it, for tokens in a text that begins at an offset. -/
def withGaps (start : Nat) : List Token → List (Span × Token)
  | [] => []
  | t :: ts => (⟨start, t.span.start⟩, t) :: withGaps t.span.stop ts

/-- The tokens cut the text into pieces that do not overlap, and leave out only blanks and comments. -/
structure Tiles (text : String) (tokens : List Token) : Prop where
  /-- The last token is the end of the text, and no other is. -/
  ended : ∃ ts, tokens = ts ++ [⟨.eof, ⟨text.utf8ByteSize, text.utf8ByteSize⟩⟩] ∧ ∀ t ∈ ts, t.kind ≠ .eof
  length_le : tokens.length ≤ text.length + 1
  nonempty : ∀ t ∈ tokens, t.kind ≠ .eof → t.span.start < t.span.stop
  boundary : ∀ t ∈ tokens, IsBoundary text t.span.start ∧ IsBoundary text t.span.stop
  inOrder : tokens.Pairwise fun t u => t.span.stop ≤ u.span.start
  /-- What stands in front of a token is a gap, which is the final one in front of the end. -/
  gap : ∀ p ∈ withGaps 0 tokens, ∃ cs, p.1.Holds text cs ∧ Trivia (p.2.kind = .eof) cs
  covered : ∀ i < text.utf8ByteSize, ∃ p ∈ withGaps 0 tokens, p.1.Covers i ∨ p.2.span.Covers i

namespace Laid

variable {text : String} {start : Nat} {cs : List Char} {ts : List Token}

theorem length_le (h : Laid start cs ts) : ts.length ≤ cs.length := by
  induction h with
  | nil hgap => exact Nat.zero_le _
  | cons hgap hlexeme hkind hrest ih =>
    have hpos := List.length_pos_iff.2 hlexeme
    simp only [List.length_cons, List.length_append]
    omega

theorem holds (h : Laid start cs ts) (htext : GoesOn text start cs) :
    ∀ t ∈ ts, t.kind ≠ .eof ∧ ∃ lexeme, lexeme ≠ [] ∧ t.span.Holds text lexeme := by
  induction h with
  | nil hgap => exact fun t ht => absurd ht List.not_mem_nil
  | cons hgap hlexeme hkind hrest ih =>
    rw [List.append_assoc] at htext
    exact List.forall_mem_cons.2
      ⟨⟨hkind, _, hlexeme, Span.holds_of_goesOn htext.drop⟩, ih htext.drop.drop⟩

theorem start_le (h : Laid start cs ts) : ∀ t ∈ ts, start ≤ t.span.start := by
  induction h with
  | nil hgap => exact fun t ht => absurd ht List.not_mem_nil
  | cons hgap hlexeme hkind hrest ih =>
    refine List.forall_mem_cons.2 ⟨Nat.le_add_right _ _, fun t ht => ?_⟩
    have hle := ih t ht
    omega

theorem start_le_stop (h : Laid start cs ts) : ∀ t ∈ ts, t.span.start ≤ t.span.stop := by
  induction h with
  | nil hgap => exact fun t ht => absurd ht List.not_mem_nil
  | cons hgap hlexeme hkind hrest ih => exact List.forall_mem_cons.2 ⟨Nat.le_add_right _ _, ih⟩

theorem pairwise (h : Laid start cs ts) : ts.Pairwise fun t u => t.span.stop ≤ u.span.start := by
  induction h with
  | nil hgap => exact .nil
  | cons hgap hlexeme hkind hrest ih => exact .cons hrest.start_le ih

theorem gaps (h : Laid start cs ts) (htext : GoesOn text start cs) :
    ∀ p ∈ withGaps start (ts ++ [⟨.eof, ⟨text.utf8ByteSize, text.utf8ByteSize⟩⟩]),
      ∃ gap, p.1.Holds text gap ∧ Trivia (p.2.kind = .eof) gap := by
  induction h with
  | @nil start gap hgap =>
    refine List.forall_mem_singleton.2 ⟨gap, ?_, hgap⟩
    rw [htext.size_eq]
    rw [← List.append_nil gap] at htext
    exact Span.holds_of_goesOn htext
  | @cons start gap lexeme rest kind ts hgap hlexeme hkind hrest ih =>
    rw [List.append_assoc] at htext
    refine List.forall_mem_cons.2 ⟨⟨gap, Span.holds_of_goesOn htext, ?_⟩, ih htext.drop.drop⟩
    rwa [decide_eq_false hkind]

theorem covered (h : Laid start cs ts) (htext : GoesOn text start cs) {i : Nat} (hstart : start ≤ i)
    (hi : i < text.utf8ByteSize) :
    ∃ p ∈ withGaps start (ts ++ [⟨.eof, ⟨text.utf8ByteSize, text.utf8ByteSize⟩⟩]),
      p.1.Covers i ∨ p.2.span.Covers i := by
  induction h with
  | nil hgap => exact ⟨_, List.mem_cons_self, .inl ⟨hstart, hi⟩⟩
  | @cons start gap lexeme rest kind ts hgap hlexeme hkind hrest ih =>
    rw [List.append_assoc] at htext
    by_cases hlater : start + width gap + width lexeme ≤ i
    · obtain ⟨p, hp, hcovers⟩ := ih htext.drop.drop hlater
      exact ⟨p, List.mem_cons_of_mem _ hp, hcovers⟩
    · refine ⟨_, List.mem_cons_self, ?_⟩
      by_cases hgap : i < start + width gap
      · exact .inl ⟨hstart, hgap⟩
      · exact .inr ⟨Nat.le_of_not_lt hgap, Nat.lt_of_not_le hlater⟩

end Laid

/-! ### All tokens of a text -/

theorem laid_scan (text : String) : Laid 0 text.toList (scan text) := laid_scanFrom 0 text.toList

theorem scanAll_eq (text : String) :
    scanAll text = scan text ++ [⟨.eof, ⟨text.utf8ByteSize, text.utf8ByteSize⟩⟩] := by
  rw [scanAll, endMark, width_toList]

theorem ne_eof_of_mem_scan {text : String} {t : Token} (h : t ∈ scan text) : t.kind ≠ .eof :=
  ((laid_scan text).holds (goesOn_start text) t h).1

theorem start_lt_stop_of_mem_scan {text : String} {t : Token} (h : t ∈ scan text) : t.span.start < t.span.stop := by
  obtain ⟨-, lexeme, hlexeme, ht⟩ := (laid_scan text).holds (goesOn_start text) t h
  exact ht.start_lt_stop hlexeme

theorem stop_le_of_mem_scan {text : String} {t : Token} (h : t ∈ scan text) : t.span.stop ≤ text.utf8ByteSize := by
  obtain ⟨-, lexeme, -, ht⟩ := (laid_scan text).holds (goesOn_start text) t h
  exact ht.stop_le

theorem mem_scanAll {text : String} {t : Token} :
    t ∈ scanAll text ↔ t ∈ scan text ∨ t = ⟨.eof, ⟨text.utf8ByteSize, text.utf8ByteSize⟩⟩ := by
  rw [scanAll_eq, List.mem_append, List.mem_singleton]

theorem eq_of_kind_eof {text : String} {t : Token} (h : t ∈ scanAll text) (hkind : t.kind = .eof) :
    t = ⟨.eof, ⟨text.utf8ByteSize, text.utf8ByteSize⟩⟩ :=
  (mem_scanAll.1 h).resolve_left fun hscan => ne_eof_of_mem_scan hscan hkind

theorem start_lt_stop_scanAll {text : String} {t : Token} (h : t ∈ scanAll text) (hkind : t.kind ≠ .eof) :
    t.span.start < t.span.stop := by
  rcases mem_scanAll.1 h with h | rfl
  · exact start_lt_stop_of_mem_scan h
  · exact absurd rfl hkind

theorem stop_le_scanAll {text : String} {t : Token} (h : t ∈ scanAll text) : t.span.stop ≤ text.utf8ByteSize := by
  rcases mem_scanAll.1 h with h | rfl
  · exact stop_le_of_mem_scan h
  · exact Nat.le_refl _

theorem isBoundary_scanAll {text : String} {t : Token} (h : t ∈ scanAll text) :
    IsBoundary text t.span.start ∧ IsBoundary text t.span.stop := by
  rcases mem_scanAll.1 h with h | rfl
  · obtain ⟨-, lexeme, -, ht⟩ := (laid_scan text).holds (goesOn_start text) t h
    exact ⟨ht.isBoundary_start, ht.isBoundary_stop⟩
  · exact ⟨isBoundary_size text, isBoundary_size text⟩

theorem pairwise_scanAll (text : String) : (scanAll text).Pairwise fun t u => t.span.stop ≤ u.span.start := by
  rw [scanAll_eq]
  refine List.pairwise_append.2 ⟨(laid_scan text).pairwise, List.pairwise_singleton _ _, fun t ht u hu => ?_⟩
  rw [List.mem_singleton.1 hu]
  exact stop_le_of_mem_scan ht

theorem start_le_stop_scanAll {text : String} {t : Token} (h : t ∈ scanAll text) : t.span.start ≤ t.span.stop := by
  by_cases hkind : t.kind = .eof
  · obtain rfl := eq_of_kind_eof h hkind
    exact Nat.le_refl _
  · exact Nat.le_of_lt (start_lt_stop_scanAll h hkind)

/-- No two tokens start at one place. -/
theorem eq_of_start_eq {text : String} {t u : Token} (ht : t ∈ scanAll text) (hu : u ∈ scanAll text)
    (h : t.span.start = u.span.start) : t = u := by
  have hscan : (scan text).Pairwise fun t u => t.span.start < u.span.start :=
    (laid_scan text).pairwise.imp_of_mem fun ht _ hle => Nat.lt_of_lt_of_le (start_lt_stop_of_mem_scan ht) hle
  have hall : (scanAll text).Pairwise fun t u => t.span.start < u.span.start := by
    rw [scanAll_eq]
    refine List.pairwise_append.2 ⟨hscan, List.pairwise_singleton _ _, fun t ht u hu => ?_⟩
    rw [List.mem_singleton.1 hu]
    exact Nat.lt_of_lt_of_le (start_lt_stop_of_mem_scan ht) (stop_le_of_mem_scan ht)
  have hnodup : ((scanAll text).map fun t => t.span.start).Nodup :=
    (List.pairwise_map.2 hall).imp fun hlt => Nat.ne_of_lt hlt
  exact List.inj_on_of_nodup_map hnodup ht hu h

/-- A token is classified by the text that begins where it stands. -/
theorem kind_of_goesOn {text : String} {t : Token} {c : Char} {cs : List Char} (ht : t ∈ scan text)
    (h : GoesOn text t.span.start (c :: cs)) : t.kind = classify c (munch c cs).1 := by
  obtain ⟨before, d, rest, hwhole, hstart, hkind⟩ := mem_scanFrom ht
  obtain ⟨before', hwhole', hstart'⟩ := h
  have hcut : splitBytes t.span.start text.toList = (before, d :: rest) := by
    rw [hstart, Nat.zero_add, hwhole, splitBytes_width]
  have hcut' : splitBytes t.span.start text.toList = (before', c :: cs) := by
    rw [← hstart', hwhole', splitBytes_width]
  obtain ⟨rfl, rfl⟩ := List.cons.inj (Prod.mk.inj (hcut.symm.trans hcut')).2
  exact hkind

private theorem holds_lexeme {text : String} {start : Nat} {cs : List Char} {t : Token} (htext : GoesOn text start cs)
    (ht : t ∈ scanFrom start cs) : ∃ c lexeme, t.span.Holds text (c :: lexeme) ∧ t.kind = classify c lexeme := by
  fun_induction scanFrom start cs with
  | case1 => exact absurd ht List.not_mem_nil
  | case2 start cs c rest hcs first stop ih =>
    have hsplit : (splitTrivia false cs).1 ++ (c :: (munch c rest).1 ++ (munch c rest).2) = cs := by
      rw [List.cons_append, munch_append, ← hcs, splitTrivia_append]
    rw [← hsplit] at htext
    rcases List.mem_cons.1 ht with rfl | ht
    · exact ⟨c, (munch c rest).1, Span.holds_of_goesOn htext.drop, rfl⟩
    · exact ih htext.drop.drop ht

/-- A token is classified by the characters in its span. -/
theorem kind_of_holds {text : String} {t : Token} {c : Char} {cs : List Char} (ht : t ∈ scan text)
    (h : t.span.Holds text (c :: cs)) : t.kind = classify c cs := by
  obtain ⟨d, lexeme, hlexeme, hkind⟩ := holds_lexeme (goesOn_start text) ht
  obtain ⟨rfl, rfl⟩ := List.cons.inj (hlexeme.unique h)
  exact hkind

/-- Scanning comes to an end for every text, and its tokens tile the text. -/
theorem tiles_scanAll (text : String) : Tiles text (scanAll text) where
  ended := ⟨scan text, scanAll_eq text, fun _ => ne_eof_of_mem_scan⟩
  length_le := by
    rw [scanAll_eq, List.length_append, ← String.length_toList]
    exact Nat.add_le_add_right (laid_scan text).length_le 1
  nonempty _ := start_lt_stop_scanAll
  boundary _ := isBoundary_scanAll
  inOrder := pairwise_scanAll text
  gap := by
    rw [scanAll_eq]
    exact (laid_scan text).gaps (goesOn_start text)
  covered i hi := by
    rw [scanAll_eq]
    exact (laid_scan text).covered (goesOn_start text) (Nat.zero_le i) hi

end Clausal.Token
