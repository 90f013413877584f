import Clausal.Expr.Render
import Clausal.Proofs.Token.Numeral

/-!
# Atoms are single tokens

Names, strings, byte strings and whole numbers as they are written. Whatever stands before them and wherever they
begin, each is read as one token, which stands for what was written and takes up exactly the text of it. What follows
must not go on with it: a quoted text minds a quote, a word also letters, numerals and the quote of strings, and a
number minds what could belong to a number.
-/

namespace Clausal.Token

/-- Names, texts and numbers are read back from what is written for them, each as one token. -/
theorem atoms_one_token {d : Dialect} (hd : d.quote = '"') (rest : List Char) :
    (∀ name, name ≠ "" → Severed rest → OneToken (d.identifier name).toList (.identifier name) rest) ∧
    (∀ s, rest.head? ≠ some '\'' → OneToken (Literal.string s).text.toList (.string s) rest) ∧
    (∀ bytes, rest.head? ≠ some '\'' → OneToken (Literal.blob bytes).text.toList (.blob bytes) rest) ∧
    (∀ n : UInt64, Ended rest → OneToken (toString n.toNat).toList (.integer n) rest) := by
  refine ⟨fun name hname hrest => oneToken_identifier hd hname hrest, fun s hrest => ?_, fun bytes hrest => ?_,
    fun n hrest => oneToken_integer n hrest⟩
  · rw [Literal.text, String.toList_ofList]
    exact oneToken_string s hrest
  · rw [Literal.text, String.toList_ofList]
    exact oneToken_blob bytes hrest

/-- A reserved word is read as a name where it is written as one. -/
theorem atoms_one_token_reserved :
    Dialect.canonical.identifier "Order" = "\"Order\"" ∧
      scan "\"Order\".x" = ⟨.identifier "Order", ⟨0, 7⟩⟩ :: scanFrom 7 ['.', 'x'] := by
  have written : Dialect.canonical.identifier "Order" = "\"Order\"" := by decide +kernel
  refine ⟨written, ?_⟩
  have h := (atoms_one_token (d := .canonical) rfl ['.', 'x']).1 "Order" (by decide) (.dot _) 0
  rw [written] at h
  exact h

end Clausal.Token
