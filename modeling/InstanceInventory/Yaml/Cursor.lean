import InstanceInventory.Text.Split

/-! # A place in a YAML text

* `Cursor`: what is left of a text, with the line and column of the place.
* `Cursor.advance`, `Cursor.takeWhile`: moving on.
* `lineBreak?`: the line break at a place, which may take two characters.
-/

namespace InstanceInventory.Yaml
set_option autoImplicit false

/-- Why a scalar of a certain kind has no value. -/
inductive ScalarFault where
  /-- It has the form of a number or date without being one. -/
  | noSuchValue
  /-- It should be a flag and is no word for one. -/
  | unknownWord
  /-- It should be a date or time and does not have the form of one. -/
  | formless
  /-- It should be a number and has no characters to read. -/
  | empty
  /-- It should be a date or time and is a mapping with a default value. -/
  | notScalar
  /-- It is a number beyond the range of doubles. -/
  | tooLarge
  /-- It is a mapping that is its own default value. -/
  | endless
  deriving DecidableEq, Repr

/-- Why a text is no YAML document. -/
inductive Fault where
  | malformed
  /-- An escape names a code point beyond the last character. -/
  | noSuchCharacter (codePoint : Nat)
  | scalar (f : ScalarFault)
  deriving DecidableEq, Repr

/-! ## Classes of characters -/

/-- A character that ends a line. -/
def isBreak (c : Char) : Bool :=
  c == '\n' || c == '\r' || c == '\u0085' || c == '\u2028' || c == '\u2029'

def isWhite (c : Char) : Bool :=
  c == ' ' || c == '\t'

def atBreak (cs : List Char) : Bool :=
  match cs with
  | [] => true
  | c :: _ => isBreak c

/-- Whether a text is at its end, at a line break or at a space. -/
def atSpace (cs : List Char) : Bool :=
  match cs with
  | [] => true
  | c :: _ => isBreak c || c == ' '

/-- Whether a text is at its end, at a line break, at a space or at a tab. -/
def atWhite (cs : List Char) : Bool :=
  match cs with
  | [] => true
  | c :: _ => isBreak c || isWhite c

/-- A letter, a digit, a dash or an underscore. -/
def isWordChar (c : Char) : Bool :=
  c.isAlphanum || c == '-' || c == '_'

/-! ## Moving on -/

/-- A place in a text: the characters left, how many were passed, and the line and column. -/
structure Cursor where
  rest : List Char
  index : Nat
  line : Nat
  column : Nat
  deriving Repr, Inhabited

namespace Cursor

def ofText (s : String) : Cursor :=
  ⟨s.toList, 0, 0, 0⟩

def peek? (c : Cursor) : Option Char :=
  c.rest.head?

def isAt (c : Cursor) (x : Char) : Bool :=
  c.peek? == some x

def next (c : Cursor) : Cursor :=
  match c.rest with
  | [] => c
  | x :: rest =>
    if isBreak x && !(x == '\r' && rest.head? == some '\n') then
      ⟨rest, c.index + 1, c.line + 1, 0⟩
    else if x == '\uFEFF' then ⟨rest, c.index + 1, c.line, c.column⟩
    else ⟨rest, c.index + 1, c.line, c.column + 1⟩

def advance : Nat → Cursor → Cursor
  | 0, c => c
  | n + 1, c => advance n c.next

/-- The characters of a class at a place, and the place after them. -/
def takeWhile (p : Char → Bool) (c : Cursor) : List Char × Cursor :=
  let cs := c.rest.takeWhile p
  (cs, c.advance cs.length)

def skipWhile (p : Char → Bool) (c : Cursor) : Cursor :=
  (c.takeWhile p).2

/-- The line break at a place, as it is kept in a scalar, and the place after it. -/
def lineBreak? (c : Cursor) : Option (Char × Cursor) :=
  match c.rest with
  | '\r' :: '\n' :: _ => some ('\n', c.advance 2)
  | x :: _ =>
    if x == '\u2028' || x == '\u2029' then some (x, c.next)
    else if isBreak x then some ('\n', c.next)
    else none
  | [] => none

/-- Whether the mark of a document, given by its character, stands at a place. -/
def isAtMark (c : Cursor) (mark : Char) : Bool :=
  c.rest.take 3 == [mark, mark, mark] && atWhite (c.rest.drop 3)

/-- Whether the beginning or the end of a document stands at a place. -/
def isAtDocumentMark (c : Cursor) : Bool :=
  c.isAtMark '-' || c.isAtMark '.'

/-- Spaces and a comment up to the end of the line, and the place after the line break; nothing else
may stand there. -/
def finishLine? (c : Cursor) : Option Cursor :=
  let c := c.skipWhile (· == ' ')
  let c := if c.isAt '#' then c.skipWhile fun x => !isBreak x else c
  if atBreak c.rest then some ((c.lineBreak?.map (·.2)).getD c) else none

end Cursor
end InstanceInventory.Yaml
