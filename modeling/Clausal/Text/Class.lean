import Clausal.Text.Alphabetic
import Clausal.Text.Numeric

/-!
# Classes of characters

The three classes that divide text into words: blanks, characters that may begin a word, and
characters that may go on with one. Unicode properties decide all three, and the low line counts as a
letter.
-/

namespace Clausal.Text

/-- The characters with the property White_Space. -/
def blankRanges : List (Nat × Nat) :=
  [(0x9, 0xd), (0x20, 0x20), (0x85, 0x85), (0xa0, 0xa0), (0x1680, 0x1680), (0x2000, 0x200a),
   (0x2028, 0x2029), (0x202f, 0x202f), (0x205f, 0x205f), (0x3000, 0x3000)]

def isBlank (c : Char) : Bool := inRanges blankRanges c.toNat

def isAlphanumeric (c : Char) : Bool := isAlphabetic c || isNumeric c

def isWordStart (c : Char) : Bool := isAlphabetic c || c == '_'

def isWordChar (c : Char) : Bool := isAlphanumeric c || c == '_'

theorem isWordChar_of_isWordStart {c : Char} (h : isWordStart c = true) : isWordChar c = true := by
  simp only [isWordStart, isWordChar, isAlphanumeric, Bool.or_eq_true] at h ⊢
  exact h.elim (fun h => .inl (.inl h)) .inr

end Clausal.Text
