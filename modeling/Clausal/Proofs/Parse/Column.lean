import Clausal.Parse.Statement
import Clausal.Proofs.Parse.Gives
import Clausal.Proofs.Parse.Reads
import Clausal.Proofs.Schema.ColumnType
import Clausal.Proofs.Statement.WellFormed

/-!
# Reading the types of columns

A plain type is read from its spelling, and every type that is read from its spelling is plain. For the second,
a spelling that began with a quoted name would have twice as many quotes as the name, and two more.
-/

namespace Clausal

open Token (Kind listed)

namespace Parse

variable {m : Aliases}

private theorem reads_typeArgument (n : UInt32) (follow : Kind → Prop) :
    Reads typeArgument m [.integer (UInt64.ofNat n.toNat)] follow n m := by
  have hlt : n.toNat < UInt64.size := Nat.lt_trans n.toNat_lt (by decide)
  have hback : (UInt64.ofNat n.toNat).toNat = n.toNat := UInt64.toNat_ofNat_of_lt' hlt
  refine Reads.place_bind fun span => (Reads.integer _).cons ?_
  rw [hback, if_pos n.toNat_lt]
  have hvalue : UInt32.ofNat n.toNat = n := UInt32.ofNat_toNat
  rw [hvalue]
  exact Reads.pure n

theorem reads_columnType (name : String) (args : List UInt32) :
    Reads columnType m (ColumnType.kindsOfParts name args) (· ≠ .symbol .leftParen)
      (.ofParts name args) m := by
  refine (Reads.identifier name).cons ?_
  cases args with
  | nil =>
    refine Reads.peek_bind fun next hnext => ?_
    rw [List.isEmpty_nil, if_pos rfl, List.headD_nil, if_neg hnext]
    exact Reads.pure _
  | cons n args =>
    rw [List.isEmpty_cons, if_neg (by decide)]
    refine Reads.peek_bind fun next _ => ?_
    have hargs : Reads (commaList typeArgument) m
        (listed ((n :: args).map fun n => [.integer (UInt64.ofNat n.toNat)]))
        (fun k => True ∧ k ≠ .symbol .comma) (n :: args) m := by
      have hall : ReadsAll typeArgument (fun _ => True) m
          ((n :: args).map fun n => [.integer (UInt64.ofNat n.toNat)]) ((n :: args).map id) m :=
        .of_forall fun k _ => reads_typeArgument k _
      rw [List.map_id] at hall
      exact Reads.commaList trivial (List.cons_ne_nil n args) hall
    rw [Token.enclosed, List.headD_cons, if_pos rfl]
    exact (Reads.parenthesized hargs ⟨trivial, by decide⟩).map (ColumnType.ofParts name)

theorem identifier_eq_ok {c c' : Cursor} {name : String} (h : identifier.run c = .ok (name, c')) :
    ∃ span, c.tokens = ⟨.identifier name, span⟩ :: c'.tokens := by
  obtain ⟨k, c₁, hpeek, h⟩ := bind_run_eq_ok h
  cases hpeek
  split at h
  · rename_i other hother
    obtain ⟨_, c₂, hskip, h⟩ := bind_run_eq_ok h
    cases hskip
    cases h
    obtain ⟨tokens, stop, m⟩ := c
    cases tokens with
    | nil => cases hother
    | cons t ts =>
      obtain ⟨kind, span⟩ := t
      cases hother
      exact ⟨span, rfl⟩
  · cases h

/-- The type that is read is named by the first token. -/
theorem columnType_eq_ok {c c' : Cursor} {t : ColumnType} (h : columnType.run c = .ok (t, c')) :
    ∃ name args span rest, c.tokens = ⟨.identifier name, span⟩ :: rest ∧ t = .ofParts name args := by
  obtain ⟨name, c₁, hname, h⟩ := bind_run_eq_ok h
  obtain ⟨k, c₂, hpeek, h⟩ := bind_run_eq_ok h
  obtain ⟨span, hspan⟩ := identifier_eq_ok hname
  split at h
  · obtain ⟨args, c₃, hargs, h⟩ := bind_run_eq_ok h
    cases h
    exact ⟨name, args, span, c₁.tokens, hspan, rfl⟩
  · cases h
    exact ⟨name, [], span, c₁.tokens, hspan, rfl⟩

end Parse

namespace ColumnType

private theorem count_encode (quote : Char) (cs : List Char) :
    (Text.Quoted.encode quote cs).count quote = 2 * cs.count quote := by
  induction cs with
  | nil => rfl
  | cons c cs ih =>
    rw [Text.Quoted.encode]
    split
    · rename_i hc
      subst hc
      simp only [List.count_cons_self, ih]
      omega
    · rename_i hc
      rw [List.count_cons_of_ne hc, List.count_cons_of_ne hc, ih]

/-- The numbers of a type are written with digits, commas and blanks. -/
theorem notMem_numbers {c : Char} (hdigit : c.isDigit = false) (hcomma : c ∉ ", ".toList) (args : List UInt32) :
    c ∉ (String.intercalate ", " (args.map fun n => toString n.toNat)).toList := by
  have hnumber : ∀ n : UInt32, c ∉ (toString n.toNat).toList := by
    intro n hmem
    rw [Token.toList_toString] at hmem
    have hc := Token.isDigit_toDigits _ _ hmem
    exact absurd (hc.symm.trans hdigit) (by decide)
  induction args with
  | nil => exact List.not_mem_nil
  | cons n args ih =>
    cases args with
    | nil => exact hnumber n
    | cons k args =>
      rw [List.map_cons, List.map_cons, String.intercalate_cons_cons, String.toList_append, String.toList_append]
      simp only [List.mem_append, not_or]
      exact ⟨⟨hnumber n, hcomma⟩, ih⟩

private theorem quote_not_mem_argumentText (args : List UInt32) : '"' ∉ (argumentText args).toList := by
  unfold argumentText
  split
  · exact List.not_mem_nil
  · rw [String.toList_append, String.toList_append]
    simp only [List.mem_append, not_or]
    exact ⟨⟨by decide, notMem_numbers (by decide) (by decide) args⟩, by decide⟩

/-- A name with no quote after it is read as itself only if it needs no quotes. -/
private theorem needsQuoting_of_kinds {name : String} {tail : List Char} (htail : '"' ∉ tail) {ks : List Kind}
    (h : Token.kinds (name.toList ++ tail) = .identifier name :: ks) : Dialect.needsQuoting name = false := by
  have hsplit := Token.splitTrivia_append false (name.toList ++ tail)
  cases hcs : (Token.splitTrivia false (name.toList ++ tail)).2 with
  | nil =>
    rw [Token.kinds_eq_nil hcs] at h
    cases h
  | cons c rest =>
    rw [Token.kinds_eq_cons hcs] at h
    obtain ⟨hfirst, -⟩ := List.cons.inj h
    rcases (Token.classify_eq_identifier hfirst).2 with ⟨-, hplain⟩ | ⟨rfl, hquoted⟩
    · exact hplain
    · have hcount := congrArg (List.count '"') hsplit
      rw [hcs, ← Token.munch_append '"' rest, hquoted] at hcount
      simp only [List.count_append, List.count_cons_self, count_encode, List.count_eq_zero_of_not_mem htail,
        List.count_nil] at hcount
      omega

theorem plain_of_readsBack {t : ColumnType} (h : t.ReadsBack) : t.Plain := by
  obtain ⟨c, hrun, -⟩ := h
  obtain ⟨name, args, span, more, hscan, hparts⟩ := Parse.columnType_eq_ok hrun
  cases hknown : known? (String.ofList (name.toList.map Char.toUpper)) args with
  | some u =>
    rw [ofParts, hknown, Option.getD_some] at hparts
    subst hparts
    exact plain_known hknown
  | none =>
    have hcustom : t = customOf name args := by rw [hparts, ofParts, hknown, Option.getD_none]
    have hspelling : t.spelling = name ++ argumentText args := by rw [hcustom, spelling_customOf]
    refine ⟨name, args, ?_, hspelling, hparts.symm⟩
    have htext : t.spelling.toList = name.toList ++ (argumentText args).toList := by
      rw [hspelling, String.toList_append]
    have hkinds : Token.kinds t.spelling.toList = .identifier name :: more.map (·.kind) :=
      congrArg (List.map Token.kind) hscan
    rw [htext] at hkinds
    exact needsQuoting_of_kinds (quote_not_mem_argumentText args) hkinds

theorem readsBack_of_plain {t : ColumnType} (h : t.Plain) : t.ReadsBack := by
  obtain ⟨name, args, hspelled⟩ := h
  have hkinds := (spells hspelled).kinds_eq
  have hread := Parse.reads_columnType (m := .empty) name args (Token.scan t.spelling) []
    (Token.endMark t.spelling).span.stop hkinds (by simp [Parse.nextKind])
  rw [List.append_nil, hspelled.2.2] at hread
  exact ⟨_, hread, rfl⟩

end ColumnType

end Clausal
