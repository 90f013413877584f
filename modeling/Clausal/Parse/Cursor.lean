import Clausal.Aliases
import Clausal.Parse.Error

/-!
# Reading tokens

A parser reads from a cursor: the tokens that are left, the place where the text ends, and the aliases
that have been bound so far. The end of the text is seen as a token without being one of the list, so it
can be looked at but never passed. Lists with commas end because the cursor gets shorter with each item.
-/

namespace Clausal.Parse

/-- What is left to read. -/
structure Cursor where
  tokens : List Token
  /-- Where the text ends, in bytes. -/
  stop : Nat
  aliases : Aliases

namespace Cursor

def kind (c : Cursor) : Token.Kind :=
  match c.tokens with
  | [] => .eof
  | t :: _ => t.kind

def span (c : Cursor) : Span :=
  match c.tokens with
  | [] => ⟨c.stop, c.stop⟩
  | t :: _ => t.span

def next (c : Cursor) : Cursor := { c with tokens := c.tokens.tail }

end Cursor

abbrev Parser := StateT Cursor (Except Failure)

def peek : Parser Token.Kind := return (← get).kind

def place : Parser Span := return (← get).span

def skip : Parser Unit := modify Cursor.next

def fail {α : Type} (fault : Fault) (span : Span) : Parser α := throw ⟨fault, span⟩

/-- Fails at the next token, where something else should stand. -/
def unexpected {α : Type} (expected : Expected) : Parser α := do
  fail (.unexpected expected (← peek)) (← place)

/-- Passes the next token if it is the given one, and says whether it was. -/
def eat (kind : Token.Kind) : Parser Bool := do
  if (← peek) = kind then
    skip
    return true
  else
    return false

def eatSymbol (s : Symbol) : Parser Bool := eat (.symbol s)

def eatKeyword (k : Keyword) : Parser Bool := eat (.keyword k)

/-- Passes a symbol, which must be next. -/
def symbol (s : Symbol) : Parser Unit := do
  unless (← eatSymbol s) do unexpected (.symbol s)

def keyword (k : Keyword) : Parser Unit := do
  unless (← eatKeyword k) do unexpected (.keyword k)

def identifier : Parser String := do
  match ← peek with
  | .identifier name =>
    skip
    return name
  | _ => unexpected .identifier

/-- Reads the items after the first of a list with commas. -/
def moreItems {α : Type} (item : Parser α) (c : Cursor) : Except Failure (List α × Cursor) :=
  if c.kind = .symbol .comma then
    match item.run c.next with
    | .error f => .error f
    | .ok (x, c') =>
      if _h : c'.tokens.length < c.tokens.length then
        match moreItems item c' with
        | .error f => .error f
        | .ok (xs, c'') => .ok (x :: xs, c'')
      else .ok ([x], c')
  else .ok ([], c)
termination_by c.tokens.length

/-- Reads a list of at least one item, with commas between the items. -/
def commaList {α : Type} (item : Parser α) : Parser (List α) := do
  let x ← item
  let xs ← fun c => moreItems item c
  return x :: xs

def parenthesized {α : Type} (inside : Parser α) : Parser α := do
  symbol .leftParen
  let x ← inside
  symbol .rightParen
  return x

end Clausal.Parse
