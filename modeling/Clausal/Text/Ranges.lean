/-!
# Ranges of code points

A property of characters is stored as a list of inclusive ranges of code points. In the blocks where
capital and small letters alternate, a range counts every second code point only, so a property comes
as two lists: whole ranges, and ranges that are stepped through by two.
-/

namespace Clausal.Text

def inRanges (ranges : List (Nat × Nat)) (n : Nat) : Bool :=
  ranges.any fun r => r.1 ≤ n && n ≤ r.2

/-- Whether `n` lies in one of the inclusive ranges, at an even distance from its start. -/
def inAlternating (ranges : List (Nat × Nat)) (n : Nat) : Bool :=
  ranges.any fun r => r.1 ≤ n && n ≤ r.2 && (n - r.1) % 2 == 0

theorem inRanges_iff {ranges : List (Nat × Nat)} {n : Nat} :
    inRanges ranges n = true ↔ ∃ r ∈ ranges, r.1 ≤ n ∧ n ≤ r.2 := by
  simp [inRanges]

end Clausal.Text
