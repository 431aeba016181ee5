import InstanceInventory.Number.Basic

/-! # Tokens

* `Token.Kind`: the kinds of token, with what a token of that kind says.
* `Token`: a piece of the text with its place.
* `Token.Kind.label`: the name of a kind in messages.
-/

namespace InstanceInventory.Literal
set_option autoImplicit false

/-- The kinds of token. A string, a heredoc and a number carry the value that they write; a string
also tells whether it holds a template, whose text then stands in the value as it is written. -/
inductive Token.Kind where
  | openBrace | closeBrace | openBracket | closeBracket | openParen | closeParen
  | equals | colon | comma
  | string (value : String) (template : Bool)
  | heredoc (value : String)
  | number (value : Number)
  | ident | newline | comment | operator
  deriving DecidableEq, Repr, Inhabited

namespace Token.Kind

def label : Token.Kind → String
  | .openBrace => "\x7b"
  | .closeBrace => "\x7d"
  | .openBracket => "["
  | .closeBracket => "]"
  | .openParen => "("
  | .closeParen => ")"
  | .equals => "="
  | .colon => ":"
  | .comma => ","
  | .string .. => "string"
  | .heredoc _ => "heredoc"
  | .number _ => "number"
  | .ident => "ident"
  | .newline => "newline"
  | .comment => "comment"
  | .operator => "operator"

/-- An opening brace, bracket or parenthesis. -/
def isOpener : Token.Kind → Bool
  | .openBrace | .openBracket | .openParen => true
  | _ => false

/-- A closing brace, bracket or parenthesis. -/
def isCloser : Token.Kind → Bool
  | .closeBrace | .closeBracket | .closeParen => true
  | _ => false

end Token.Kind

/-- A piece of a text: the characters from `start` up to `stop`, on the line where it begins.
Places are counted in characters and lines in newlines, both from zero. -/
structure Token where
  kind : Token.Kind
  text : String
  start : Nat
  stop : Nat
  line : Nat
  deriving DecidableEq, Repr, Inhabited

end InstanceInventory.Literal
