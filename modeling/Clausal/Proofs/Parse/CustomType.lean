import Clausal.Proofs.Parse.Column

/-!
# Types under any name

A custom type keeps the name it was read under, without the quotes that the name may have needed. It is read back if
it has a known name or a name that needs no quotes, or if the name itself looks like a word and its arguments. Under
every other quoted name it is not: its spelling stands for something else, or for nothing.
-/

namespace Clausal.ColumnType

open Dialect (needsQuoting)

/-- The whole text is read as the type. -/
def IsReadFrom (t : ColumnType) (text : String) : Prop :=
  ∃ c, Parse.columnType.run (.ofText text) = .ok (t, c) ∧ c.tokens = []

instance (t : ColumnType) (text : String) : Decidable (t.IsReadFrom text) :=
  match h : Parse.columnType.run (.ofText text) with
  | .ok (u, c) =>
    decidable_of_iff (u = t ∧ c.tokens = []) <| by
      rw [IsReadFrom, h]
      constructor
      · rintro ⟨rfl, hc⟩
        exact ⟨c, rfl, hc⟩
      · rintro ⟨_, ⟨⟩, hc⟩
        exact ⟨rfl, hc⟩
  | .error _ => isFalse fun ⟨_, hrun, _⟩ => by cases h.symm.trans hrun

instance (t : ColumnType) : Decidable t.ReadsBack := inferInstanceAs (Decidable (t.IsReadFrom t.spelling))

theorem readsBack_iff_plain (t : ColumnType) : t.ReadsBack ↔ t.Plain := ⟨plain_of_readsBack, readsBack_of_plain⟩

/-! ### Names and arguments -/

/-- The known type under a name, in whatever case it is written. -/
def knownAs? (name : String) (args : List UInt32) : Option ColumnType :=
  known? (String.ofList (name.toList.map Char.toUpper)) args

theorem ofParts_eq_known {name : String} {args : List UInt32} {t : ColumnType} (h : knownAs? name args = some t) :
    ofParts name args = t := by
  rw [ofParts, ← knownAs?, h, Option.getD_some]

theorem ofParts_eq_custom {name : String} {args : List UInt32} (h : knownAs? name args = none) :
    ofParts name args = custom (name ++ argumentText args) := by
  rw [ofParts, ← knownAs?, h, Option.getD_none, customOf_eq]

theorem ofParts_eq_custom_iff {name text : String} {args : List UInt32} :
    ofParts name args = custom text ↔ knownAs? name args = none ∧ name ++ argumentText args = text := by
  cases hknown : knownAs? name args with
  | some t =>
    rw [ofParts_eq_known hknown]
    refine iff_of_false ?_ fun h => by cases h.1
    rintro rfl
    exact known?_ne_custom _ args text hknown
  | none => rw [ofParts_eq_custom hknown, custom.injEq, eq_self_iff_true, true_and]

private theorem known?_decimal {name : String} (h : name = "DECIMAL" ∨ name = "NUMERIC") (n k : UInt32) :
    known? name [n] = (narrow? n).map (fun p => decimal (some p) none) ∧
      known? name [n, k] = (narrow? n).bind fun p => (narrow? k).map fun s => decimal (some p) (some s) := by
  refine ⟨by rw [known?, if_pos h], ?_⟩
  rw [known?, if_pos h]
  cases narrow? n with
  | none => rfl
  | some p => cases narrow? k <;> rfl

/-- The name of the decimal types, in whatever case it is written. -/
def IsDecimalName (name : String) : Prop :=
  String.ofList (name.toList.map Char.toUpper) = "DECIMAL" ∨ String.ofList (name.toList.map Char.toUpper) = "NUMERIC"

/-- The arguments of a decimal are its precision and scale if sixteen bits hold all of them, and otherwise they stay
in the text of the type. -/
structure KeepsDecimal (name : String) (args : List UInt32) : Prop where
  fit : (∀ n ∈ args, n.toNat < 2 ^ 16) → ∃ p s, ofParts name args = decimal (some p) s ∧
    (p :: s.toList).map (·.toNat) = args.map (·.toNat)
  exceed : (∃ n ∈ args, 2 ^ 16 ≤ n.toNat) → ofParts name args = custom (name ++ argumentText args)

theorem keepsDecimal {name : String} (hname : IsDecimalName name) {args : List UInt32}
    (hargs : args.length = 1 ∨ args.length = 2) : KeepsDecimal name args := by
  have fits (n : UInt32) (h : n.toNat < 2 ^ 16) : ∃ p, narrow? n = some p ∧ p.toNat = n.toNat := by
    have hn : narrow? n = some (UInt16.ofNat n.toNat) := if_pos h
    exact ⟨_, hn, narrow?_eq_some hn⟩
  have exceeds (n : UInt32) (h : 2 ^ 16 ≤ n.toNat) : narrow? n = none := by
    have hlarge : ¬ n.toNat < UInt16.size := Nat.not_lt.2 h
    exact if_neg hlarge
  match args, hargs with
  | [n], _ =>
    refine ⟨fun h => ?_, fun h => ?_⟩
    · obtain ⟨p, hp, hvalue⟩ := fits n (h n List.mem_cons_self)
      refine ⟨p, none, ofParts_eq_known ?_, congrArg (fun v => [v]) hvalue⟩
      rw [knownAs?, (known?_decimal hname n n).1, hp, Option.map_some]
    · obtain ⟨k, hk, hlarge⟩ := h
      rw [List.mem_singleton.1 hk] at hlarge
      refine ofParts_eq_custom ?_
      rw [knownAs?, (known?_decimal hname n n).1, exceeds n hlarge, Option.map_none]
  | [n, k], _ =>
    refine ⟨fun h => ?_, fun h => ?_⟩
    · obtain ⟨p, hp, hprecision⟩ := fits n (h n List.mem_cons_self)
      obtain ⟨s, hs, hscale⟩ := fits k (h k (List.mem_cons_of_mem _ List.mem_cons_self))
      refine ⟨p, some s, ofParts_eq_known ?_, congrArg₂ (fun v w => [v, w]) hprecision hscale⟩
      rw [knownAs?, (known?_decimal hname n k).2, hp, Option.bind_some, hs, Option.map_some]
    · refine ofParts_eq_custom ?_
      rw [knownAs?, (known?_decimal hname n k).2, Option.bind_eq_none_iff]
      intro p hp
      obtain ⟨x, hx, hlarge⟩ := h
      rcases List.mem_cons.1 hx with rfl | hx
      · cases hp.symm.trans (exceeds x hlarge)
      · rw [List.mem_singleton.1 hx] at hlarge
        rw [exceeds k hlarge, Option.map_none]

theorem argumentText_toList {args : List UInt32} (h : args ≠ []) :
    ∃ cs, (argumentText args).toList = '(' :: cs ∧ '(' ∉ cs := by
  refine ⟨(String.intercalate ", " (args.map fun n => toString n.toNat)).toList ++ [')'], ?_, ?_⟩
  · rw [argumentText, if_neg (by rwa [List.isEmpty_iff]), String.toList_append, String.toList_append]
    rfl
  · rw [List.mem_append, not_or]
    exact ⟨notMem_numbers (by decide) (by decide) args, by decide⟩

theorem paren_notMem {name : String} (h : needsQuoting name = false) : '(' ∉ name.toList := by
  have hplain : Dialect.isPlain name = true := by
    rw [needsQuoting, Bool.or_eq_false_iff, Bool.not_eq_false'] at h
    exact h.1
  rw [Dialect.isPlain] at hplain
  split at hplain
  · cases hplain
  · rename_i c cs hcs
    obtain ⟨hstart, hword⟩ := Bool.and_eq_true_iff.1 hplain
    have hparen : Text.isWordChar '(' = false := by decide +kernel
    rw [hcs]
    refine List.not_mem_cons_of_ne_of_not_mem ?_ fun hmem => ?_
    · exact (Text.ne_of_isWordChar (Text.isWordChar_of_isWordStart hstart) hparen).symm
    · exact Text.ne_of_isWordChar (List.all_eq_true.1 hword _ hmem) hparen rfl

/-- A text is a word and its arguments in one way only, unless all of it is taken as a name. -/
theorem name_of_append_argumentText {name word : String} {args more : List UInt32}
    (hword : needsQuoting word = false) (h : name ++ argumentText args = word ++ argumentText more) :
    name = word ∨ args = [] ∧ more ≠ [] := by
  have htext := congrArg String.toList h
  rw [String.toList_append, String.toList_append] at htext
  have hbare : (argumentText []).toList = [] := rfl
  by_cases hargs : args = []
  · by_cases hmore : more = []
    · rw [hargs, hmore, hbare, List.append_nil, List.append_nil] at htext
      exact .inl (String.toList_inj.1 htext)
    · exact .inr ⟨hargs, hmore⟩
  · obtain ⟨cs, hcs, -⟩ := argumentText_toList hargs
    rw [hcs] at htext
    by_cases hmore : more = []
    · -- The word alone has no parenthesis.
      rw [hmore, hbare, List.append_nil] at htext
      refine absurd ?_ (paren_notMem hword)
      rw [← htext]
      exact List.mem_append_right _ List.mem_cons_self
    · obtain ⟨ds, hds, hlast⟩ := argumentText_toList hmore
      rw [hds] at htext
      have hsame := (List.append_cons_inj_of_notMem (paren_notMem hword) hlast).1 htext.symm
      exact .inl (String.toList_inj.1 hsame.1.symm)

/-! ### Which names are read back -/

/-- The name itself looks like a word that is no known type, and its arguments. -/
def IsApplied (name : String) : Prop :=
  ∃ word args, needsQuoting word = false ∧ args ≠ [] ∧ knownAs? word args = none ∧ name = word ++ argumentText args

/-- A type is read back from its spelling if it is known, if its name needs no quotes, or if a bare name looks like a
custom type with arguments; and only then. -/
theorem ofParts_readsBack_iff (name : String) (args : List UInt32) :
    (ofParts name args).ReadsBack ↔
      (knownAs? name args).isSome ∨ needsQuoting name = false ∨ args = [] ∧ IsApplied name := by
  rw [readsBack_iff_plain]
  constructor
  · rintro ⟨word, more, hword, hspelling, hparts⟩
    cases hknown : knownAs? name args with
    | some t => exact .inl rfl
    | none =>
      rw [ofParts_eq_custom hknown] at hspelling hparts
      obtain ⟨hunknown, -⟩ := ofParts_eq_custom_iff.1 hparts
      -- The spelling is a word and arguments in one way, so the word is the name, or the name spells both.
      rcases name_of_append_argumentText hword hspelling with rfl | ⟨rfl, hmore⟩
      · exact .inr (.inl hword)
      · exact .inr (.inr ⟨rfl, word, more, hword, hmore, hunknown, (String.append_empty).symm.trans hspelling⟩)
  · intro h
    cases hknown : knownAs? name args with
    | some t =>
      rw [ofParts_eq_known hknown]
      exact plain_known hknown
    | none =>
      rw [hknown] at h
      rcases h with h | hword | ⟨rfl, word, more, hword, -, hunknown, rfl⟩
      · cases h
      · exact plain_ofParts args hword
      · rw [ofParts_eq_custom hknown]
        have hbare : word ++ argumentText more ++ argumentText [] = word ++ argumentText more := String.append_empty
        exact ⟨word, more, hword, hbare, ofParts_eq_custom_iff.2 ⟨hunknown, hbare.symm⟩⟩

/-- A type is read from a quoted name with a blank, of a reserved word or like a known type, and is not read back from
its own spelling. -/
theorem not_readsBack_quoted :
    ((ofParts "my type" []).IsReadFrom "\"my type\"" ∧ ¬ (ofParts "my type" []).ReadsBack) ∧
      ((ofParts "select" []).IsReadFrom "\"select\"" ∧ ¬ (ofParts "select" []).ReadsBack) ∧
      ((ofParts "char(5)" []).IsReadFrom "\"char(5)\"" ∧ ¬ (ofParts "char(5)" []).ReadsBack) := by
  decide +kernel

end Clausal.ColumnType
