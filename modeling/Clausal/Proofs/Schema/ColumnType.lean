import Clausal.Proofs.Token.Spelling
import Clausal.Schema.ColumnType

/-!
# Types that are read as they are spelled

A type is plain when it is spelled as a word and its arguments, and that word with these arguments stands for
the type. The known types are plain, and so is a custom type under the name of a word. The spelling of a plain
type is read as the word and the arguments. Plain or not, a type keeps the arguments that it is made from.
-/

namespace Clausal.ColumnType

open Token

def argumentText (args : List UInt32) : String :=
  if args.isEmpty then "" else "(" ++ String.intercalate ", " (args.map fun n => toString n.toNat) ++ ")"

/-- The type is spelled as a word and its arguments, and stands for them. -/
def IsSpelled (t : ColumnType) (name : String) (args : List UInt32) : Prop :=
  Dialect.needsQuoting name = false ∧ t.spelling = name ++ argumentText args ∧ ofParts name args = t

/-- The type is read from its spelling. -/
def Plain (t : ColumnType) : Prop := ∃ name args, t.IsSpelled name args

theorem spelling_customOf (name : String) (args : List UInt32) :
    (customOf name args).spelling = name ++ argumentText args := by
  unfold customOf argumentText
  split
  · rw [String.append_empty]
    rfl
  · rw [← String.append_assoc, ← String.append_assoc]
    rfl

theorem customOf_eq (name : String) (args : List UInt32) : customOf name args = custom (name ++ argumentText args) := by
  rw [← spelling_customOf]
  unfold customOf
  split <;> rfl

theorem narrow?_eq_some {n : UInt32} {p : UInt16} (h : narrow? n = some p) : p.toNat = n.toNat := by
  unfold narrow? at h
  split at h
  · rename_i hlt
    cases h
    exact UInt16.toNat_ofNat_of_lt' hlt
  · cases h

def bareTypes : List ColumnType :=
  [smallint, integer, bigint, real, double, decimal none none, char none, varchar none, text, blob, date, time,
   timestamp, boolean]

private theorem mem_of_ite {p : Prop} [Decidable p] {t u : ColumnType} {other : Option ColumnType}
    {types : List ColumnType} (h : (if p then some u else other) = some t)
    (hother : other = some t → t ∈ types) : t ∈ u :: types := by
  split at h
  · rw [Option.some.inj h]
    exact List.mem_cons_self
  · exact List.mem_cons_of_mem _ (hother h)

private theorem mem_bareTypes {name : String} {t : ColumnType} (h : known? name [] = some t) : t ∈ bareTypes := by
  simp only [known?] at h
  iterate 14 refine mem_of_ite h fun h => ?_
  cases h

/-- Arguments and a known type that is made from them. -/
inductive Takes : List UInt32 → ColumnType → Prop where
  | bare {t : ColumnType} (ht : t ∈ bareTypes) : Takes [] t
  | precision {n : UInt32} {p : UInt16} (hp : narrow? n = some p) : Takes [n] (decimal (some p) none)
  | scale {n k : UInt32} {p s : UInt16} (hp : narrow? n = some p) (hs : narrow? k = some s) :
    Takes [n, k] (decimal (some p) (some s))
  | char (n : UInt32) : Takes [n] (char (some n))
  | varchar (n : UInt32) : Takes [n] (varchar (some n))

theorem takes_of_known? {name : String} {args : List UInt32} {t : ColumnType} (h : known? name args = some t) :
    Takes args t := by
  match args, h with
  | [], h => exact .bare (mem_bareTypes h)
  | [n], h =>
    simp only [known?] at h
    split at h
    · obtain ⟨p, hp, rfl⟩ := Option.map_eq_some_iff.1 h
      exact .precision hp
    split at h
    · cases h
      exact .char n
    split at h
    · cases h
      exact .varchar n
    · cases h
  | [n, k], h =>
    simp only [known?] at h
    split at h
    · obtain ⟨p, hp, h⟩ := Option.bind_eq_some_iff.1 h
      obtain ⟨s, hs, h⟩ := Option.bind_eq_some_iff.1 h
      cases h
      exact .scale hp hs
    · cases h
  | _ :: _ :: _ :: _, h => cases h

/-- No custom type is known under a name. -/
theorem known?_ne_custom (name : String) (args : List UInt32) (text : String) : known? name args ≠ some (custom text) := by
  intro h
  cases takes_of_known? h with
  | bare ht => simp [bareTypes] at ht

private theorem isSpelled_bareTypes : ∀ t ∈ bareTypes, t.IsSpelled t.spelling [] := by
  unfold IsSpelled
  decide +kernel

private theorem argumentText_one (n : UInt32) : argumentText [n] = "(" ++ toString n.toNat ++ ")" := rfl

private theorem argumentText_two (n k : UInt32) :
    argumentText [n, k] = "(" ++ (toString n.toNat ++ ", " ++ toString k.toNat) ++ ")" := rfl

/-- A type with a known name is spelled under its canonical name. -/
theorem plain_known {name : String} {args : List UInt32} {t : ColumnType} (h : known? name args = some t) :
    t.Plain := by
  cases takes_of_known? h with
  | bare ht => exact ⟨_, [], isSpelled_bareTypes t ht⟩
  | @precision n p hp =>
    refine ⟨"DECIMAL", [n], by decide +kernel, ?_, ?_⟩
    · rw [argumentText_one, ← narrow?_eq_some hp, ← String.append_assoc, ← String.append_assoc]
      rfl
    · show (Option.map _ (narrow? n)).getD _ = _
      rw [hp]
      rfl
  | @scale n k p s hp hs =>
    refine ⟨"DECIMAL", [n, k], by decide +kernel, ?_, ?_⟩
    · rw [argumentText_two, ← narrow?_eq_some hp, ← narrow?_eq_some hs]
      simp only [← String.append_assoc]
      rfl
    · show (Option.bind (narrow? n) _).getD _ = _
      rw [hp, Option.bind_some, hs]
      rfl
  | char n =>
    refine ⟨"CHAR", [n], by decide +kernel, ?_, rfl⟩
    rw [argumentText_one, ← String.append_assoc, ← String.append_assoc]
    rfl
  | varchar n =>
    refine ⟨"VARCHAR", [n], by decide +kernel, ?_, rfl⟩
    rw [argumentText_one, ← String.append_assoc, ← String.append_assoc]
    rfl

/-- A type under a word that needs no quotes is plain. -/
theorem plain_ofParts {name : String} (args : List UInt32) (h : Dialect.needsQuoting name = false) :
    (ofParts name args).Plain := by
  cases hknown : known? (String.ofList (name.toList.map Char.toUpper)) args with
  | some t =>
    have hparts : ofParts name args = t := by rw [ofParts, hknown, Option.getD_some]
    rw [hparts]
    exact plain_known hknown
  | none =>
    have hparts : ofParts name args = customOf name args := by rw [ofParts, hknown, Option.getD_none]
    exact ⟨name, args, h, by rw [hparts, spelling_customOf], rfl⟩

/-- The arguments are the numbers of the type: a length, a precision and a scale, or what stands in the text of a
custom type after its name. -/
def Keeps (name : String) (args : List UInt32) : ColumnType → Prop
  | decimal p s => args.map (·.toNat) = (p.toList ++ s.toList).map (·.toNat)
  | char length | varchar length => args = length.toList
  | custom spelled => spelled = name ++ argumentText args
  | _ => args = []

private theorem keeps_bareTypes (name : String) : ∀ t ∈ bareTypes, t.Keeps name [] := by
  simp [bareTypes, Keeps]

/-- A type keeps all its arguments as they are. -/
theorem keeps_ofParts (name : String) (args : List UInt32) : (ofParts name args).Keeps name args := by
  unfold ofParts
  cases hknown : known? (String.ofList (name.toList.map Char.toUpper)) args with
  | none =>
    rw [Option.getD_none, customOf_eq]
    rfl
  | some t =>
    rw [Option.getD_some]
    cases takes_of_known? hknown with
    | bare ht => exact keeps_bareTypes name t ht
    | precision hp => exact congrArg (fun x => [x]) (narrow?_eq_some hp).symm
    | scale hp hs => exact congrArg₂ (fun x y => [x, y]) (narrow?_eq_some hp).symm (narrow?_eq_some hs).symm
    | char n => rfl
    | varchar n => rfl

/-- The tokens of a type with a name and arguments. -/
def kindsOfParts (name : String) (args : List UInt32) : List Kind :=
  .identifier name ::
    (if args.isEmpty then [] else Token.enclosed (listed (args.map fun n => [.integer (UInt64.ofNat n.toNat)])))

private theorem spells_argument (n : UInt32) : Spells (toString n.toNat) [.integer (UInt64.ofNat n.toNat)] :=
  fun _ hrest => kinds_integer (Nat.lt_trans n.toNat_lt (by decide)) hrest

theorem spells {t : ColumnType} {name : String} {args : List UInt32} (h : t.IsSpelled name args) :
    Spells t.spelling (kindsOfParts name args) := by
  obtain ⟨hplain, hspelling, -⟩ := h
  have hname : name ≠ "" := by
    rintro rfl
    exact absurd hplain (by decide)
  have hbare : Dialect.canonical.identifier name = name := by
    rw [Dialect.identifier, hplain]
    rfl
  have hword : Spells name [.identifier name] := by
    have hspells := Spells.identifier (d := .canonical) rfl hname
    rwa [hbare] at hspells
  rw [hspelling, argumentText, kindsOfParts]
  split
  · rwa [String.append_empty]
  · have hargs : Spells (String.intercalate ", " (args.map fun n => toString n.toNat))
        (listed (args.map fun n => [.integer (UInt64.ofNat n.toNat)])) := by
      apply Spells.listed
      rw [List.forall₂_map_left_iff, List.forall₂_map_right_iff, List.forall₂_same]
      exact fun n _ => spells_argument n
    have hspells := Spells.identifier_paren (d := .canonical) rfl hname hargs
    rw [hbare, String.append_assoc, String.append_assoc] at hspells
    rwa [String.append_assoc]

end Clausal.ColumnType
