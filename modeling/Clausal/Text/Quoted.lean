/-!
# Quoted text

Text between two quote characters, in which the quote character itself is written twice. `encode`
writes the text between the quotes, `untilClosing` finds where quoted text ends, and `decode` reads the
text back. Main statements: reading gives back what was written, and quoted text is found whole when
what follows does not begin with the quote.
-/

namespace Clausal.Text.Quoted

/-- Writes every `quote` of the text twice. -/
def encode (quote : Char) : List Char → List Char
  | [] => []
  | c :: cs => if c = quote then quote :: quote :: encode quote cs else c :: encode quote cs

def enclose (quote : Char) (cs : List Char) : List Char := quote :: (encode quote cs ++ [quote])

/-- Splits after the closing quote; everything comes first if there is none. -/
def untilClosing (quote : Char) : List Char → List Char × List Char
  | [] => ([], [])
  | [c] => ([c], [])
  | c :: d :: rest =>
    if c = quote then
      if d = quote then
        let (inside, after) := untilClosing quote rest
        (c :: d :: inside, after)
      else ([c], d :: rest)
    else
      let (inside, after) := untilClosing quote (d :: rest)
      (c :: inside, after)

/-- The text whose encoding, followed by one closing quote, is given. -/
def decode (quote : Char) : List Char → Option (List Char)
  | [] => none
  | [c] => if c = quote then some [] else none
  | c :: d :: rest =>
    if c = quote then
      if d = quote then (decode quote rest).map (quote :: ·) else none
    else (decode quote (d :: rest)).map (c :: ·)

theorem untilClosing_append (quote : Char) (cs : List Char) :
    (untilClosing quote cs).1 ++ (untilClosing quote cs).2 = cs := by
  fun_induction untilClosing quote cs <;> simp_all

theorem decode_encode (quote : Char) (cs : List Char) :
    decode quote (encode quote cs ++ [quote]) = some cs := by
  induction cs with
  | nil => simp [encode, decode]
  | cons c cs ih =>
    by_cases h : c = quote
    · simp [encode, decode, h, ih]
    · have hne : encode quote cs ++ [quote] ≠ [] := by simp
      obtain ⟨d, rest, hd⟩ := List.exists_cons_of_ne_nil hne
      simp only [encode, h, if_false, List.cons_append]
      rw [hd] at ih ⊢
      simp [decode, h, ih]

theorem untilClosing_encode (quote : Char) (cs rest : List Char) (hrest : rest.head? ≠ some quote) :
    untilClosing quote (encode quote cs ++ quote :: rest) = (encode quote cs ++ [quote], rest) := by
  induction cs with
  | nil =>
    cases rest with
    | nil => simp [encode, untilClosing]
    | cons d rest =>
      have hd : ¬ d = quote := by simpa using hrest
      simp [encode, untilClosing, hd]
  | cons c cs ih =>
    by_cases h : c = quote
    · simp [encode, untilClosing, h, ih]
    · have hne : encode quote cs ++ quote :: rest ≠ [] := by simp
      obtain ⟨d, more, hd⟩ := List.exists_cons_of_ne_nil hne
      simp only [encode, h, if_false, List.cons_append]
      rw [hd] at ih ⊢
      simp [untilClosing, h, ih]

end Clausal.Text.Quoted
