import Clausal.Proofs.Token.Numeral
import Mathlib.Data.List.Forall2

/-!
# Texts that spell tokens

A text spells a list of tokens when it is read as these tokens wherever nothing follows that could go on with
its last lexeme. Texts are put together from such texts with blanks, commas and parentheses, and each way of
putting them together has its lemma here, so that the writers never look at characters again.
-/

namespace Clausal.Token

open Text

/-- The text is read as the given kinds of tokens. -/
def Spells (text : String) (ks : List Kind) : Prop :=
  ∀ rest, Apart rest → kinds (text.toList ++ rest) = ks ++ kinds rest

def listed : List (List Kind) → List Kind
  | [] => []
  | [ks] => ks
  | ks :: ls :: rest => ks ++ .symbol .comma :: listed (ls :: rest)

@[simp] theorem listed_singleton (ks : List Kind) : listed [ks] = ks := rfl

@[simp] theorem listed_cons_cons (ks ls : List Kind) (rest : List (List Kind)) :
    listed (ks :: ls :: rest) = ks ++ .symbol .comma :: listed (ls :: rest) := rfl

def enclosed (ks : List Kind) : List Kind := .symbol .leftParen :: (ks ++ [.symbol .rightParen])

namespace Spells

variable {text other : String} {ks ls : List Kind}

theorem kinds_eq (h : Spells text ks) : kinds text.toList = ks := by
  have hend := h [] Apart.nil
  rwa [List.append_nil, kinds_nil, List.append_nil] at hend

theorem empty : Spells "" [] := fun _ _ => rfl

theorem spaced (h : Spells text ks) (h' : Spells other ls) : Spells (text ++ " " ++ other) (ks ++ ls) := by
  intro rest hrest
  have hsplit : (text ++ " " ++ other).toList ++ rest = text.toList ++ ' ' :: (other.toList ++ rest) := by
    simp [String.toList_append]
  rw [hsplit, h _ (Apart.space _), kinds_space, h' rest hrest, List.append_assoc]

theorem paren (h : Spells text ks) : Spells ("(" ++ text ++ ")") (enclosed ks) := by
  intro rest _
  have hsplit : ("(" ++ text ++ ")").toList ++ rest = '(' :: (text.toList ++ ')' :: rest) := by
    simp [String.toList_append]
  rw [hsplit, kinds_leftParen, h _ (Apart.rightParen _), kinds_rightParen]
  simp [enclosed]

theorem keyword (k : Keyword) : Spells k.text [.keyword k] :=
  fun _ hrest => kinds_keyword k hrest.severed

theorem star : Spells "*" [.symbol .star] := fun rest _ => kinds_star rest

theorem natural (n : UInt64) : Spells (toString n.toNat) [.integer n] := by
  intro rest hrest
  rw [kinds_integer n.toNat_lt hrest, UInt64.ofNat_toNat]
  rfl

/-- Texts with commas between them spell their tokens with commas between them. -/
theorem listed {texts : List String} {kss : List (List Kind)} (h : List.Forall₂ Spells texts kss) :
    Spells (String.intercalate ", " texts) (listed kss) := by
  induction h with
  | nil => exact empty
  | @cons text ks texts kss htext htexts ih =>
    cases htexts with
    | nil => exact htext
    | @cons other ls texts kss _ _ =>
      intro rest hrest
      have hsplit : (String.intercalate ", " (text :: other :: texts)).toList ++ rest =
          text.toList ++ ',' :: ' ' :: ((String.intercalate ", " (other :: texts)).toList ++ rest) := by
        simp [String.toList_append]
      rw [hsplit, htext _ (Apart.comma _), kinds_comma, kinds_space, ih rest hrest, listed_cons_cons,
        List.append_assoc, List.cons_append]

/-- Texts with blanks between them spell their tokens one after the other. -/
theorem flatten {texts : List String} {kss : List (List Kind)} (h : List.Forall₂ Spells texts kss) :
    Spells (String.intercalate " " texts) kss.flatten := by
  induction h with
  | nil => exact empty
  | @cons text ks texts kss htext htexts ih =>
    cases htexts with
    | nil => rwa [String.intercalate_singleton, List.flatten_cons, List.flatten_nil, List.append_nil]
    | cons _ _ =>
      rw [String.intercalate_cons_cons, List.flatten_cons]
      exact htext.spaced ih

end Spells

/-! ### Minus signs -/

/-- The text begins, and not with a minus sign, so that a minus sign before it opens no comment. -/
def Unsigned (text : String) : Prop := ∃ c cs, text.toList = c :: cs ∧ c ≠ '-'

theorem Unsigned.append {text : String} (h : Unsigned text) (other : String) : Unsigned (text ++ other) := by
  obtain ⟨c, cs, htext, hc⟩ := h
  exact ⟨c, cs ++ other.toList, by rw [String.toList_append, htext, List.cons_append], hc⟩

theorem Unsigned.paren (text : String) : Unsigned ("(" ++ text ++ ")") :=
  Unsigned.append (Unsigned.append ⟨'(', [], rfl, by decide⟩ text) ")"

theorem Spells.minus {text : String} {ks : List Kind} (h : Spells text ks) (hunsigned : Unsigned text) :
    Spells ("-" ++ text) (.symbol .minus :: ks) := by
  intro rest hrest
  obtain ⟨c, cs, htext, hc⟩ := hunsigned
  have hhead : (text.toList ++ rest).head? ≠ some '-' := by
    rw [htext, List.cons_append, List.head?_cons]
    exact fun h => hc (Option.some.inj h)
  have hsplit : ("-" ++ text).toList ++ rest = '-' :: (text.toList ++ rest) := by
    simp [String.toList_append]
  rw [hsplit, kinds_minus hhead, h rest hrest, List.cons_append]

/-! ### Names -/

theorem Spells.identifier {d : Dialect} (hd : d.quote = '"') {name : String} (hname : name ≠ "") :
    Spells (d.identifier name) [.identifier name] :=
  fun _ hrest => kinds_identifier hd hname hrest.severed

theorem Unsigned.identifier {d : Dialect} (hd : d.quote = '"') (name : String) :
    Unsigned (d.identifier name) := by
  unfold Dialect.identifier
  split
  · exact ⟨'"', _, by rw [hd, String.toList_ofList, Quoted.enclose], by decide⟩
  · rename_i hplain
    have hword : Dialect.isPlain name = true := by
      simp only [Dialect.needsQuoting, Bool.or_eq_true, not_or, Bool.not_eq_true, Bool.not_eq_false'] at hplain
      exact hplain.1
    rw [Dialect.isPlain] at hword
    split at hword
    · exact absurd hword (by simp)
    · rename_i c cs hcs
      exact ⟨c, cs, hcs, ne_of_isWordStart (Bool.and_eq_true_iff.1 hword).1 (by decide)⟩

/-- A name with a parenthesis directly after it. -/
theorem Spells.identifier_paren {d : Dialect} (hd : d.quote = '"') {name text : String} {ks : List Kind}
    (hname : name ≠ "") (h : Spells text ks) :
    Spells (d.identifier name ++ "(" ++ text ++ ")") (.identifier name :: enclosed ks) := by
  intro rest hrest
  have hsplit : (d.identifier name ++ "(" ++ text ++ ")").toList ++ rest =
      (d.identifier name).toList ++ (("(" ++ text ++ ")").toList ++ rest) := by
    simp [String.toList_append]
  have hopen : Severed (("(" ++ text ++ ")").toList ++ rest) := by
    simp [String.toList_append]
  rw [hsplit, kinds_identifier hd hname hopen, h.paren rest hrest, List.cons_append]

end Clausal.Token
