import Clausal.Text.Class
import Clausal.Text.Hex
import Clausal.Text.Quoted
import Clausal.Token.Basic

/-!
# Scanning

Text is cut into lexemes, and every lexeme is classified by itself. Between lexemes stand blanks and
comments; a comment begins with two hyphens and runs to the end of its line. A lexeme is as long as its
first character allows: `munch` says how far it reaches, and `classify` what it stands for. Main
statements: a lexeme and what follows it make up the text again, so nothing is lost, and every lexeme
has at least one character, so scanning ends.
-/

namespace Clausal.Token

open Text

/-- Splits off the blanks and comments at the front. The flag says whether a comment is open. -/
def splitTrivia (comment : Bool) : List Char → List Char × List Char
  | [] => ([], [])
  | c :: cs =>
    if comment then
      let (skipped, rest) := splitTrivia (c != '\n') cs
      (c :: skipped, rest)
    else if isBlank c then
      let (skipped, rest) := splitTrivia false cs
      (c :: skipped, rest)
    else if c == '-' && cs.head? == some '-' then
      let (skipped, rest) := splitTrivia true cs
      (c :: skipped, rest)
    else ([], c :: cs)

/-- A fraction: a point with at least one digit after it. -/
def splitFraction : List Char → List Char × List Char
  | '.' :: d :: cs =>
    if d.isDigit then ('.' :: d :: cs.takeWhile Char.isDigit, cs.dropWhile Char.isDigit)
    else ([], '.' :: d :: cs)
  | cs => ([], cs)

def splitSign : List Char → List Char × List Char
  | [] => ([], [])
  | c :: cs => if c = '+' ∨ c = '-' then ([c], cs) else ([], c :: cs)

/-- An exponent: its letter, a sign, and digits, of which there may be none. -/
def splitExponent : List Char → List Char × List Char
  | [] => ([], [])
  | c :: cs =>
    if c = 'e' ∨ c = 'E' then
      let (sign, cs) := splitSign cs
      (c :: (sign ++ cs.takeWhile Char.isDigit), cs.dropWhile Char.isDigit)
    else ([], c :: cs)

/-- A number after its first digit. -/
def splitNumber (cs : List Char) : List Char × List Char :=
  let (fraction, rest) := splitFraction (cs.dropWhile Char.isDigit)
  let (exponent, rest) := splitExponent rest
  (cs.takeWhile Char.isDigit ++ fraction ++ exponent, rest)

/-- Whether `c` and the text after it begin a byte string. -/
def opensBlob (c : Char) (cs : List Char) : Bool :=
  (c == 'x' || c == 'X') && cs.head? == some '\''

/-- How much of `cs` belongs to the lexeme that `c` begins, and what is left. -/
def munch (c : Char) (cs : List Char) : List Char × List Char :=
  if c = '\'' ∨ c = '"' then Quoted.untilClosing c cs
  else if opensBlob c cs then
    let (body, rest) := Quoted.untilClosing '\'' (cs.drop 1)
    (cs.take 1 ++ body, rest)
  else if c.isDigit then splitNumber cs
  else if isWordStart c || c == ':' then (cs.takeWhile isWordChar, cs.dropWhile isWordChar)
  else if c = '?' then (cs.takeWhile Char.isDigit, cs.dropWhile Char.isDigit)
  else
    match cs with
    | [] => ([], [])
    | d :: rest => if (Symbol.ofPair? c d).isSome then ([d], rest) else ([], d :: rest)

def decimal (digits : List Char) : Nat := Nat.ofDigitChars 10 digits 0

/-- What the body of a byte string, after its opening quote, stands for. -/
def classifyBlob (body : List Char) : Kind :=
  match Quoted.decode '\'' body with
  | none => .malformed .openBlob
  | some hex =>
    if width hex % 2 ≠ 0 then .malformed .oddBlob
    else
      match bytesOfPairs? hex with
      | some bytes => .blob bytes
      | none => .malformed .badBlob

/-- The value of an exponent's sign and digits, if there are digits. -/
def exponentValue? (cs : List Char) : Option Int :=
  let (sign, digits) := splitSign cs
  if digits.isEmpty then none
  else if sign = ['-'] then some (-(decimal digits : Int))
  else some (decimal digits)

def classifyNumber (lexeme : List Char) : Kind :=
  let whole := lexeme.takeWhile Char.isDigit
  let (fraction, exponent) := splitFraction (lexeme.dropWhile Char.isDigit)
  if fraction.isEmpty && exponent.isEmpty then
    if decimal whole < UInt64.size then .integer (UInt64.ofNat (decimal whole))
    else .malformed (.bigInteger (String.ofList lexeme))
  else
    match if exponent.isEmpty then some 0 else exponentValue? (exponent.drop 1) with
    | none => .malformed (.badFloat (String.ofList lexeme))
    | some e =>
      let places := fraction.drop 1
      .float (Binary64.ofDecimal false (decimal (whole ++ places)) (e - places.length))

/-- What a lexeme stands for; `c` is its first character and `cs` are the others. -/
def classify (c : Char) (cs : List Char) : Kind :=
  if c = '\'' then
    match Quoted.decode '\'' cs with
    | some s => .string (String.ofList s)
    | none => .malformed .openString
  else if c = '"' then
    match Quoted.decode '"' cs with
    | some [] => .malformed .emptyName
    | some s => .identifier (String.ofList s)
    | none => .malformed .openName
  else if opensBlob c cs then classifyBlob (cs.drop 1)
  else if c.isDigit then classifyNumber (c :: cs)
  else if isWordStart c then
    match Keyword.ofWord? (c :: cs) with
    | some k => .keyword k
    | none => .identifier (String.ofList (c :: cs))
  else if c = ':' then
    if cs.isEmpty then .malformed .missingName else .named (String.ofList cs)
  else if c = '?' then
    if cs.isEmpty || UInt32.size ≤ decimal cs then .malformed .missingIndex
    else .positional (UInt32.ofNat (decimal cs))
  else
    match cs with
    | [] => match Symbol.ofChar? c with
      | some s => .symbol s
      | none => .malformed (.strangeCharacter c)
    | d :: _ => match Symbol.ofPair? c d with
      | some s => .symbol s
      | none => .malformed (.strangeCharacter c)

theorem splitTrivia_append (comment : Bool) (cs : List Char) :
    (splitTrivia comment cs).1 ++ (splitTrivia comment cs).2 = cs := by
  induction cs generalizing comment with
  | nil => rfl
  | cons c cs ih =>
    unfold splitTrivia
    split
    · simp [ih]
    split
    · simp [ih]
    split
    · simp [ih]
    · rfl

theorem splitFraction_append (cs : List Char) :
    (splitFraction cs).1 ++ (splitFraction cs).2 = cs := by
  unfold splitFraction
  split
  · split <;> simp [List.takeWhile_append_dropWhile]
  · rfl

theorem splitSign_append (cs : List Char) : (splitSign cs).1 ++ (splitSign cs).2 = cs := by
  unfold splitSign
  split
  · rfl
  · split <;> rfl

theorem splitExponent_append (cs : List Char) :
    (splitExponent cs).1 ++ (splitExponent cs).2 = cs := by
  unfold splitExponent
  split
  · rfl
  · rename_i c cs
    split
    · have h := splitSign_append cs
      simp only [List.cons_append, List.append_assoc, List.takeWhile_append_dropWhile, h]
    · rfl

theorem splitNumber_append (cs : List Char) : (splitNumber cs).1 ++ (splitNumber cs).2 = cs := by
  have h₁ := splitFraction_append (cs.dropWhile Char.isDigit)
  have h₂ := splitExponent_append (splitFraction (cs.dropWhile Char.isDigit)).2
  simp only [splitNumber, List.append_assoc]
  rw [h₂, h₁, List.takeWhile_append_dropWhile]

/-- A lexeme and the text after it are the text. -/
theorem munch_append (c : Char) (cs : List Char) : (munch c cs).1 ++ (munch c cs).2 = cs := by
  unfold munch
  split
  · exact Quoted.untilClosing_append c cs
  split
  · simp only [List.append_assoc]
    rw [Quoted.untilClosing_append, List.take_append_drop]
  split
  · exact splitNumber_append cs
  split
  · exact List.takeWhile_append_dropWhile
  split
  · exact List.takeWhile_append_dropWhile
  · split
    · rfl
    · split <;> rfl

theorem length_splitTrivia_le (cs : List Char) : (splitTrivia false cs).2.length ≤ cs.length := by
  have h := congrArg List.length (splitTrivia_append false cs)
  rw [List.length_append] at h
  omega

theorem length_munch_le (c : Char) (cs : List Char) : (munch c cs).2.length ≤ cs.length := by
  have h := congrArg List.length (munch_append c cs)
  rw [List.length_append] at h
  omega

/-- The tokens of a text that begins at a byte offset. -/
def scanFrom (start : Nat) (cs : List Char) : List Token :=
  match _h : (splitTrivia false cs).2 with
  | [] => []
  | c :: rest =>
    let first := start + width (splitTrivia false cs).1
    let stop := first + width (c :: (munch c rest).1)
    ⟨classify c (munch c rest).1, ⟨first, stop⟩⟩ :: scanFrom stop (munch c rest).2
termination_by cs.length
decreasing_by
  have h₁ := length_splitTrivia_le cs
  have h₂ := length_munch_le c rest
  rw [_h, List.length_cons] at h₁
  omega

/-- The tokens of a text, without the end mark. -/
def scan (text : String) : List Token := scanFrom 0 text.toList

def endMark (text : String) : Token := ⟨.eof, ⟨width text.toList, width text.toList⟩⟩

def scanAll (text : String) : List Token := scan text ++ [endMark text]

end Clausal.Token
