/-!
# Symbols

The operators and delimiters of the statement language. Every symbol has one canonical spelling of one
or two characters; inequality may also be spelled `!=`.
-/

namespace Clausal

inductive Symbol where
  | plus
  | minus
  | star
  | slash
  | percent
  | eq
  | notEq
  | lt
  | ltEq
  | gt
  | gtEq
  | concat
  | bitAnd
  | bitOr
  | leftShift
  | rightShift
  | leftParen
  | rightParen
  | comma
  | dot
  | semicolon
  deriving DecidableEq, Repr

namespace Symbol

def text : Symbol → String
  | plus => "+"
  | minus => "-"
  | star => "*"
  | slash => "/"
  | percent => "%"
  | eq => "="
  | notEq => "<>"
  | lt => "<"
  | ltEq => "<="
  | gt => ">"
  | gtEq => ">="
  | concat => "||"
  | bitAnd => "&"
  | bitOr => "|"
  | leftShift => "<<"
  | rightShift => ">>"
  | leftParen => "("
  | rightParen => ")"
  | comma => ","
  | dot => "."
  | semicolon => ";"

def ofChar? : Char → Option Symbol
  | '+' => some plus
  | '-' => some minus
  | '*' => some star
  | '/' => some slash
  | '%' => some percent
  | '=' => some eq
  | '<' => some lt
  | '>' => some gt
  | '&' => some bitAnd
  | '|' => some bitOr
  | '(' => some leftParen
  | ')' => some rightParen
  | ',' => some comma
  | '.' => some dot
  | ';' => some semicolon
  | _ => none

def ofPair? : Char → Char → Option Symbol
  | '<', '=' => some ltEq
  | '<', '>' => some notEq
  | '<', '<' => some leftShift
  | '>', '=' => some gtEq
  | '>', '>' => some rightShift
  | '!', '=' => some notEq
  | '|', '|' => some concat
  | _, _ => none

end Symbol

end Clausal
