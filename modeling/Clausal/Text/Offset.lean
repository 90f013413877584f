/-!
# Byte offsets

Positions in text count the bytes of its UTF-8 encoding. `width` is the length of a run of characters
in bytes, and `splitBytes` cuts text at an offset; an offset inside a character is moved back to the
start of that character, and one beyond the end to the end.
-/

namespace Clausal.Text

/-- The number of bytes that the characters take up. -/
def width : List Char → Nat
  | [] => 0
  | c :: cs => c.utf8Size + width cs

@[simp] theorem width_nil : width [] = 0 := rfl

@[simp] theorem width_cons (c : Char) (cs : List Char) : width (c :: cs) = c.utf8Size + width cs := rfl

@[simp] theorem width_append (cs ds : List Char) : width (cs ++ ds) = width cs + width ds := by
  induction cs with
  | nil => simp
  | cons c cs ih => simp [ih, Nat.add_assoc]

theorem width_pos {c : Char} {cs : List Char} : 0 < width (c :: cs) := by
  have := c.utf8Size_pos
  simp only [width_cons]
  omega

/-- The characters that fit into the first `n` bytes, and the others. -/
def splitBytes (n : Nat) : List Char → List Char × List Char
  | [] => ([], [])
  | c :: cs =>
    if c.utf8Size ≤ n then
      let (before, after) := splitBytes (n - c.utf8Size) cs
      (c :: before, after)
    else ([], c :: cs)

/-- Cutting loses nothing. -/
theorem splitBytes_append (n : Nat) (cs : List Char) :
    (splitBytes n cs).1 ++ (splitBytes n cs).2 = cs := by
  induction cs generalizing n with
  | nil => rfl
  | cons c cs ih =>
    by_cases h : c.utf8Size ≤ n
    · simp [splitBytes, h, ih]
    · simp [splitBytes, h]

/-- Cutting at the width of a beginning gives that beginning. -/
theorem splitBytes_width (cs ds : List Char) : splitBytes (width cs) (cs ++ ds) = (cs, ds) := by
  induction cs with
  | nil =>
    cases ds with
    | nil => rfl
    | cons d ds =>
      have := d.utf8Size_pos
      simp [splitBytes, Nat.not_le.2 this]
  | cons c cs ih => simp [splitBytes, ih]

end Clausal.Text
