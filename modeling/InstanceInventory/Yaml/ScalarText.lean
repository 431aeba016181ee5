import InstanceInventory.Literal.Lexer
import InstanceInventory.Yaml.Cursor

/-! # The text of YAML scalars

* `plainScalar`: a scalar without quotes, which may go on over several lines.
* `quotedScalar`: a scalar between single or double quotes.
* `blockScalar`: a scalar of whole lines, literal or folded.

A single line break inside a scalar becomes a space and the breaks after it stay, except in literal
blocks, where every break stays. The loops take a number of rounds, which the length of the text
bounds.
-/

namespace InstanceInventory.Yaml
set_option autoImplicit false

/-- The text that a first line break and the breaks after it stand for inside a scalar. -/
def foldBreaks (first : Char) (breaks : List Char) : List Char :=
  (if first != '\n' then [first] else if breaks.isEmpty then [' '] else []) ++ breaks

/-! ## Plain scalars -/

/-- A plain scalar: its text, the place after it, and whether a line break was passed after it. -/
structure Plain where
  text : List Char
  after : Cursor
  passedBreak : Bool

/-- How many characters of a plain scalar stand before a space, an indicator or the end of the
line. -/
def plainRun (inFlow : Bool) : List Char → Nat
  | [] => 0
  | c :: cs =>
    if isBreak c || isWhite c then 0
    else if c == ':' &&
        (atWhite cs || (inFlow && (cs.head?.any ",[]\x7b\x7d".toList.contains))) then
      0
    else if inFlow && ",?[]\x7b\x7d".toList.contains c then 0
    else plainRun inFlow cs + 1

/-- Spaces and line breaks after the first break in a plain scalar; nothing if the mark of a
document follows. -/
def plainBreaks : Nat → Cursor → Option (List Char × Cursor)
  | 0, c => some ([], c)
  | rounds + 1, c =>
    if c.isAt ' ' then plainBreaks rounds c.next
    else match c.lineBreak? with
    | none => some ([], c)
    | some (x, c) =>
      if c.isAtDocumentMark then none
      else (plainBreaks rounds c).map fun r => (x :: r.1, r.2)

/-- What may stand between two runs of a plain scalar: the text that it stands for, the place after
it, and whether it holds a line break. Without a text the scalar is at its end. -/
def plainGap (c : Cursor) : List Char × Cursor × Bool :=
  let (spaces, c) := c.takeWhile (· == ' ')
  match c.lineBreak? with
  | none => (spaces, c, false)
  | some (x, c) =>
    if c.isAtDocumentMark then ([], c, true)
    else match plainBreaks (c.rest.length + 1) c with
      | some (breaks, c) => (foldBreaks x breaks, c, true)
      | none => ([], c, true)

/-- Reads on in a plain scalar after a gap. -/
def plainFrom (inFlow : Bool) (indent : Int) (gap : List Char) (passed : Bool) :
    Nat → Cursor → Plain
  | 0, c => ⟨[], c, passed⟩
  | rounds + 1, c =>
    let n := plainRun inFlow c.rest
    if c.isAt '#' || n == 0 then ⟨[], c, passed⟩
    else
      let text := gap ++ c.rest.take n
      let (gap', after, broke) := plainGap (c.advance n)
      if gap'.isEmpty || after.isAt '#' || (!inFlow && (after.column : Int) < indent) then
        ⟨text, after, broke⟩
      else
        let r := plainFrom inFlow indent gap' broke rounds after
        ⟨text ++ r.text, r.after, r.passedBreak⟩

/-- The plain scalar at a place; outside of flow collections its further lines are indented by at
least `indent`. -/
def plainScalar (inFlow : Bool) (indent : Int) (c : Cursor) : Plain :=
  plainFrom inFlow indent [] false (c.rest.length + 1) c

/-! ## Quoted scalars -/

/-- The characters that stand for another one after a backslash. -/
def shortEscapes : List (Char × Char) :=
  [('0', '\x00'), ('a', '\x07'), ('b', '\x08'), ('t', '\t'), ('\t', '\t'), ('n', '\n'),
    ('v', '\x0B'), ('f', '\x0C'), ('r', '\r'), ('e', '\x1B'), (' ', ' '), ('"', '"'), ('\\', '\\'),
    ('/', '/'), ('N', '\u0085'), ('_', '\u00A0'), ('L', '\u2028'), ('P', '\u2029')]

/-- The letters that write a character by its code point, with the number of digits. -/
def codePointEscapes : List (Char × Nat) :=
  [('x', 2), ('u', 4), ('U', 8)]

/-- Line breaks in a quoted scalar, with the white space before each. -/
def quotedBreaks : Nat → Cursor → Except Fault (List Char × Cursor)
  | 0, c => .ok ([], c)
  | rounds + 1, c =>
    if c.isAtDocumentMark then .error .malformed
    else
      let c := c.skipWhile isWhite
      match c.lineBreak? with
      | none => .ok ([], c)
      | some (x, c) => (quotedBreaks rounds c).map fun r => (x :: r.1, r.2)

/-- White space in a quoted scalar: the text that it stands for and the place after it. -/
def quotedGap (c : Cursor) : Except Fault (List Char × Cursor) :=
  let (white, c) := c.takeWhile isWhite
  match c.lineBreak? with
  | some (x, c) => (quotedBreaks (c.rest.length + 1) c).map fun r => (foldBreaks x r.1, r.2)
  | none => if c.rest.isEmpty then .error .malformed else .ok (white, c)

/-- What an escape in a double-quoted scalar stands for, from the character after the backslash on,
and the place after it. -/
def quotedEscape (c : Cursor) : Except Fault (List Char × Cursor) :=
  match c.rest with
  | [] => .error .malformed
  | x :: rest =>
    match shortEscapes.lookup x, codePointEscapes.lookup x with
    | some y, _ => .ok ([y], c.next)
    | none, some width =>
      let digits := rest.take width
      if digits.length == width && digits.all Literal.isHexDigit then
        let n := Literal.hexNumber digits
        if 0x10FFFF < n then .error (.noSuchCharacter n)
        else .ok ([Literal.charOfCodePoint n], c.advance (width + 1))
      else .error .malformed
    | none, none =>
      match c.lineBreak? with
      | some (_, c) => quotedBreaks (c.rest.length + 1) c
      | none => .error .malformed

/-- Reads on in a quoted scalar up to its closing quote. -/
def quotedFrom (quote : Char) : Nat → Cursor → Except Fault (List Char × Cursor)
  | 0, _ => .error .malformed
  | rounds + 1, c =>
    let add := fun (text : List Char) (c : Cursor) =>
      (quotedFrom quote rounds c).map fun r => (text ++ r.1, r.2)
    match c.rest with
    | [] => .error .malformed
    | x :: rest =>
      if x == quote then
        if quote == '\'' && rest.head? == some '\'' then add ['\''] (c.advance 2)
        else .ok ([], c.next)
      else if isWhite x || isBreak x then do
        let (text, c) ← quotedGap c
        add text c
      else if x == '\\' && quote == '"' then do
        let (text, c) ← quotedEscape c.next
        add text c
      else add [x] c.next

/-- The text of the quoted scalar at a place, and the place after it. -/
def quotedScalar (quote : Char) (c : Cursor) : Except Fault (List Char × Cursor) :=
  quotedFrom quote (c.rest.length + 1) c.next

/-! ## Block scalars -/

/-- What becomes of the line breaks at the end of a block scalar. -/
inductive Chomping where
  | strip | clip | keep
  deriving DecidableEq

def chomping? (c : Char) : Option Chomping :=
  if c == '+' then some .keep else if c == '-' then some .strip else none

/-- The signs after the mark of a block scalar: its chomping, its indentation if it is given, and
the place after them. -/
def blockHeader (c : Cursor) : Except Fault (Chomping × Option Nat × Cursor) :=
  let sign := fun (c : Cursor) => match c.peek?.bind chomping? with
    | some k => (k, c.next)
    | none => (Chomping.clip, c)
  let digit := fun (c : Cursor) => match c.peek? with
    | some x => if x.isDigit then (some (x.toNat - '0'.toNat), c.next) else (none, c)
    | none => (none, c)
  let (chomping, width, c) :=
    if (c.peek?.bind chomping?).isSome then
      let (k, c) := sign c
      let (w, c) := digit c
      (k, w, c)
    else
      let (w, c) := digit c
      if w.isSome then
        let (k, c) := sign c
        (k, w, c)
      else (Chomping.clip, w, c)
  if width == some 0 || !atSpace c.rest then .error .malformed else .ok (chomping, width, c)

/-- Line breaks before a line of a block scalar, with up to `indent` spaces before each; the place
after the spaces of the line. -/
def blockBreaks (indent : Nat) : Nat → Cursor → List Char × Cursor
  | 0, c => ([], c)
  | rounds + 1, c =>
    let spaces := (c.rest.takeWhile (· == ' ')).length
    let c := c.advance (min spaces (indent - c.column))
    match c.lineBreak? with
    | none => ([], c)
    | some (x, c) =>
      let r := blockBreaks indent rounds c
      (x :: r.1, r.2)

/-- Line breaks and spaces before the first line of a block scalar; the widest indentation met. -/
def blockLead : Nat → Cursor → List Char × Nat × Cursor
  | 0, c => ([], 0, c)
  | rounds + 1, c =>
    if c.isAt ' ' then
      let r := blockLead rounds c.next
      (r.1, max c.next.column r.2.1, r.2.2)
    else match c.lineBreak? with
    | none => ([], 0, c)
    | some (x, c) =>
      let r := blockLead rounds c
      (x :: r.1, r.2.1, r.2.2)

/-- The lines of a block scalar: their text, the last line break, the breaks after it, and the place
after them. -/
def blockLines (folded : Bool) (indent : Nat) (breaks : List Char) :
    Nat → Cursor → List Char × List Char × List Char × Cursor
  | 0, c => ([], [], breaks, c)
  | rounds + 1, c =>
    if c.column != indent || c.rest.isEmpty then ([], [], breaks, c)
    else
      let startsWhite := c.peek?.any isWhite
      let (line, c) := c.takeWhile fun x => !isBreak x
      let (ending, c) := match c.lineBreak? with
        | some (x, c) => ([x], c)
        | none => ([], c)
      let (breaks', c) := blockBreaks indent (c.rest.length + 1) c
      let text := breaks ++ line
      if c.column == indent && !c.rest.isEmpty then
        let joined :=
          if folded && ending == ['\n'] && !startsWhite && !c.peek?.any isWhite then
            if breaks'.isEmpty then [' '] else []
          else ending
        let r := blockLines folded indent breaks' rounds c
        (text ++ joined ++ r.1, r.2)
      else (text, ending, breaks', c)

/-- The text of the block scalar at a place, and the place after it; `parent` is the indentation
around it. -/
def blockScalar (folded : Bool) (parent : Int) (c : Cursor) :
    Except Fault (List Char × Cursor) := do
  let (chomping, width, c) ← blockHeader c.next
  let c ← match c.finishLine? with
    | some c => pure c
    | none => throw Fault.malformed
  let least := (max (parent + 1) 1).toNat
  let (breaks, indent, c) := match width with
    | none =>
      let (breaks, widest, c) := blockLead (c.rest.length + 1) c
      (breaks, max least widest, c)
    | some w =>
      let indent := least + w - 1
      let (breaks, c) := blockBreaks indent (c.rest.length + 1) c
      (breaks, indent, c)
  let (text, ending, breaks, c) := blockLines folded indent breaks (c.rest.length + 1) c
  return (text ++ (if chomping == .strip then [] else ending) ++
    (if chomping == .keep then breaks else []), c)

end InstanceInventory.Yaml
