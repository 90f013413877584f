import Clausal.Text.Class
import Clausal.Text.Lower

/-!
# Snake case

A name in snake case is its words, lower-cased and joined by low lines. Characters that are neither
letters nor numerals only separate words. Inside an unbroken piece a word ends before a capital that
follows a small letter, and before the last capital of a run of capitals when a small letter follows.
Numerals have no case: they keep the case of the letter before them.
-/

namespace Clausal.Text

/-- The case of the last cased character of the word that is being read. -/
inductive CaseMode where
  | boundary
  | small
  | capital
  deriving DecidableEq, Repr

/-- The mode after one more character of the same word. -/
def CaseMode.after (mode : CaseMode) (c : Char) : CaseMode :=
  if isLowercase c then .small else if isUppercase c then .capital else mode

/-- Splits an unbroken piece into words; `word` is the current word so far, backwards. -/
def wordsFrom (mode : CaseMode) (word : List Char) : List Char → List (List Char)
  | [] => []
  | [c] => [(c :: word).reverse]
  | c :: d :: rest =>
    if mode.after c = .small ∧ isUppercase d = true then
      (c :: word).reverse :: wordsFrom .boundary [] (d :: rest)
    else if mode = .capital ∧ isUppercase c = true ∧ isLowercase d = true then
      word.reverse :: wordsFrom .boundary [c] (d :: rest)
    else
      wordsFrom (mode.after c) (c :: word) (d :: rest)

/-- The maximal runs of characters that satisfy `p`; `run` is the current run so far, backwards. -/
def runsFrom (p : Char → Bool) (run : List Char) : List Char → List (List Char)
  | [] => [run.reverse]
  | c :: cs => if p c then runsFrom p (c :: run) cs else run.reverse :: runsFrom p [] cs

def words (s : List Char) : List (List Char) :=
  (runsFrom isAlphanumeric [] s).flatMap (wordsFrom .boundary [])

/-- Lower-cases one word; a capital sigma that ends it becomes the final small sigma. -/
def lowerWord : List Char → List Char
  | [] => []
  | [c] => if c = 'Σ' then ['ς'] else lowerChar c
  | c :: cs => lowerChar c ++ lowerWord cs

def snake (s : String) : String :=
  String.ofList (((words s.toList).map lowerWord).intersperse ['_']).flatten

end Clausal.Text
