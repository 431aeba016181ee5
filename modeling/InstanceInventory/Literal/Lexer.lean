import InstanceInventory.Literal.Error
import InstanceInventory.Literal.Token
import InstanceInventory.Text.Blank
import InstanceInventory.Text.DecimalDigit
import InstanceInventory.Text.Split

/-! # Splitting a document into tokens

* `quotedFrom`: a quoted string, whose templates may hold quoted strings in turn.
* `heredoc`: a text between an opening marker and a line that holds the marker alone.
* `lexeme`: what begins at a character, and how many further characters belong to it.
* `tokensFrom`, `tokenize`: the tokens of a text. Blanks between tokens are dropped; every other
  character belongs to exactly one token.
-/

namespace InstanceInventory.Literal
set_option autoImplicit false

def lineAfter (line : Nat) (c : Char) : Nat :=
  if c = '\n' then line + 1 else line

/-! ## Escapes -/

def isHexDigit (c : Char) : Bool :=
  ('0' ≤ c && c ≤ '9') || ('a' ≤ c && c ≤ 'f') || ('A' ≤ c && c ≤ 'F')

def hexValue (c : Char) : Nat :=
  if c ≤ '9' then c.toNat - '0'.toNat
  else if c ≤ 'F' then c.toNat - 'A'.toNat + 10
  else c.toNat - 'a'.toNat + 10

def hexNumber (cs : List Char) : Nat :=
  cs.foldl (fun n c => 16 * n + hexValue c) 0

/-- The character of a code point. A code point that is reserved for pairs stands for the
replacement character. -/
def charOfCodePoint (n : Nat) : Char :=
  if n.isValidChar then Char.ofNat n else '\uFFFD'

/-- A character written by its code point in `width` digits, and how many characters it takes. -/
def codePointEscape (line width : Nat) (cs : List Char) : Except Fault (Char × Nat) :=
  let digits := cs.take width
  if digits.length = width ∧ digits.all isHexDigit then
    if 0x10FFFF < hexNumber digits then .error (.noSuchCharacter (hexNumber digits))
    else .ok (charOfCodePoint (hexNumber digits), width + 1)
  else .error (.atLine .invalidUnicodeEscape line)

/-- The character that an escape stands for, and how many characters after the backslash it
takes. -/
def escape (line : Nat) : List Char → Except Fault (Char × Nat)
  | [] => .error (.atLine .danglingEscape line)
  | c :: cs =>
    if c = 'n' then .ok ('\n', 1)
    else if c = 't' then .ok ('\t', 1)
    else if c = 'r' then .ok ('\r', 1)
    else if c = '"' then .ok ('"', 1)
    else if c = '\\' then .ok ('\\', 1)
    else if c = 'u' then codePointEscape line 4 cs
    else if c = 'U' then codePointEscape line 8 cs
    else .error (.atLine (.unknownEscape c) line)

/-! ## Quoted strings -/

/-- What is open inside a quoted string: a template, with the number of braces open inside it, or a
quoted string in a template; each with the line on which it began. -/
inductive Frame where
  | template (line braces : Nat)
  | quote (line : Nat)
  deriving DecidableEq, Repr

/-- The error when the text ends, inside the frames of a string that began on a line. -/
def unterminated (opened : Nat) : List Frame → Fault
  | [] => .atLine .unterminatedString opened
  | .quote line :: _ => .atLine .unterminatedString line
  | .template line _ :: _ => .atLine .unterminatedTemplate line

/-- What a character inside a quoted string does: it ends the string, or it leads into other frames
after `skip` further characters. -/
inductive QuoteStep where
  | done
  | next (frames : List Frame) (decoded : Option Char) (skip : Nat)
  deriving Repr

/-- The step at a character directly inside a string that began on the line `opened`; `close` is
what its closing quote does. -/
def stringStep (opened line : Nat) (frames : List Frame) (close : QuoteStep) (c : Char)
    (rest : List Char) : Except Fault QuoteStep :=
  if c = '\n' then .error (.atLine .unterminatedString opened)
  else if c = '"' then .ok close
  else if c = '\\' then (escape line rest).map fun e => .next frames (some e.1) e.2
  else if c = '$' ∨ c = '%' then
    if rest.take 2 = [c, '\x7b'] then .ok (.next frames (some c) 1)
    else if rest.take 1 = ['\x7b'] then .ok (.next (.template line 0 :: frames) (some c) 1)
    else .ok (.next frames (some c) 0)
  else .ok (.next frames (some c) 0)

/-- The step at a character directly inside a template. -/
def templateStep (opened braces line : Nat) (outer : List Frame) (c : Char) : QuoteStep :=
  if c = '"' then .next (.quote line :: .template opened braces :: outer) none 0
  else if c = '\x7b' then .next (.template opened (braces + 1) :: outer) none 0
  else if c = '\x7d' then
    match braces with
    | 0 => .next outer none 0
    | n + 1 => .next (.template opened n :: outer) none 0
  else .next (.template opened braces :: outer) none 0

/-- The step at a character inside the frames of a string that began on the line `opened`. -/
def quoteStep (opened line : Nat) (frames : List Frame) (c : Char) (rest : List Char) :
    Except Fault QuoteStep :=
  match frames with
  | [] => stringStep opened line [] .done c rest
  | .quote inner :: outer => stringStep inner line frames (.next outer none 0) c rest
  | .template inner braces :: outer => .ok (templateStep inner braces line outer c)

/-- What a quoted string says: its value, whether it holds a template, and how many characters
follow its opening quote. -/
structure QuotedString where
  value : List Char
  template : Bool
  length : Nat
  deriving DecidableEq, Repr

/-- The value of a string after a character. Inside a template the characters stand as they are
written; outside, as they are decoded. -/
def QuotedString.push (q : QuotedString) (inside : Bool) (c : Char) (decoded : Option Char) :
    QuotedString :=
  let added := if inside then some c else decoded
  { value := match added with
      | some c => c :: q.value
      | none => q.value
    template := q.template || inside
    length := q.length + 1 }

/-- Reads on in a quoted string that began on the line `opened`, after what is read so far (its
value in reverse) and before `skip` characters that the last step has taken. -/
def quotedFrom (opened line : Nat) (frames : List Frame) (read : QuotedString) :
    Nat → List Char → Except Fault QuotedString
  | _, [] => .error (unterminated opened frames)
  | skip + 1, c :: rest =>
    quotedFrom opened (lineAfter line c) frames (read.push (!frames.isEmpty) c none) skip rest
  | 0, c :: rest =>
    match quoteStep opened line frames c rest with
    | .error e => .error e
    | .ok .done =>
      .ok { read with value := read.value.reverse, length := read.length + 1 }
    | .ok (.next frames' decoded skip) =>
      quotedFrom opened (lineAfter line c) frames'
        (read.push (!frames.isEmpty) c decoded) skip rest

/-- The quoted string whose opening quote stands before `rest`. -/
def quotedString (line : Nat) (rest : List Char) : Except Fault QuotedString :=
  quotedFrom line line [] ⟨[], false, 0⟩ 0 rest

/-! ## Heredocs -/

/-- A letter or underscore, which begins a name. -/
def isNameStart (c : Char) : Bool :=
  ('A' ≤ c && c ≤ 'Z') || ('a' ≤ c && c ≤ 'z') || c == '_'

/-- A character of a name after the first. -/
def isNameChar (c : Char) : Bool :=
  isNameStart c || ('0' ≤ c && c ≤ '9') || c == '-'

/-- The characters of the name at the head of a text, none if no name begins there. -/
def nameChars : List Char → List Char
  | [] => []
  | c :: cs => if isNameStart c then c :: cs.takeWhile isNameChar else []

/-- The opening line of a heredoc after its two marks: whether it strips indentation, the marker,
and how many characters the line has. -/
structure HeredocOpening where
  flush : Bool
  marker : List Char
  length : Nat
  deriving DecidableEq, Repr

/-- Whether a text is at the end of its line, but for a carriage return, and how many characters
that takes. -/
def lineEnd? : List Char → Option Nat
  | [] => some 0
  | '\n' :: _ => some 0
  | ['\r'] => some 1
  | '\r' :: '\n' :: _ => some 1
  | _ => none

/-- The opening of a heredoc at the two marks, if nothing but blanks follows its marker on the
line. -/
def heredocOpening? : List Char → Option HeredocOpening
  | '<' :: '<' :: rest =>
    let flush := rest.take 1 = ['-']
    let rest := if flush then rest.drop 1 else rest
    let marker := nameChars rest
    let after := rest.drop marker.length
    let blanks := after.takeWhile fun c => c == ' ' || c == '\t'
    if marker.isEmpty then none
    else (lineEnd? (after.drop blanks.length)).map fun n =>
      ⟨flush, marker, 2 + (if flush then 1 else 0) + marker.length + blanks.length + n⟩
  | _ => none

/-- The indentation that every line of a heredoc shares, blank lines aside. -/
def commonIndent (ls : List (List Char)) : Nat :=
  (((ls.filter fun l => !Text.allBlank l).map fun l =>
    l.length - (Text.trimStart l).length).min?).getD 0

/-- The value of a heredoc: its lines, each closed by a newline, without the common indentation if
it is to be stripped. -/
def heredocValue (flush : Bool) (ls : List (List Char)) : List Char :=
  let indent := if flush then commonIndent ls else 0
  ls.flatMap fun l => l.drop indent ++ ['\n']

/-- The lines of a heredoc before the one that holds the marker alone, with that line. -/
def heredocBody? (marker : List Char) : List (List Char) → Option (List (List Char) × List Char)
  | [] => none
  | l :: ls =>
    if Text.trimChars l = marker then some ([], l)
    else (heredocBody? marker ls).map fun b => (l :: b.1, b.2)

/-- The length of lines, each with the line break that ends it. -/
def closedLength : List (List Char) → Nat
  | [] => 0
  | l :: ls => l.length + 1 + closedLength ls

/-- The heredoc that opens at the head of a text on a line: its value and its length. -/
def heredoc (line : Nat) (cs : List Char) (o : HeredocOpening) : Except Fault (List Char × Nat) :=
  let body? := match cs.drop o.length with
    | [] => none
    | _ :: rest => heredocBody? o.marker (Text.lineChars rest)
  match body? with
  | none => .error (.atLine (.unterminatedHeredoc (String.ofList o.marker)) line)
  | some (ls, last) =>
    .ok (heredocValue o.flush (ls.map (Text.dropEndWhile (· == '\r'))),
      o.length + 1 + closedLength ls + last.length)

/-! ## Numbers -/

def digitChars (cs : List Char) : List Char :=
  cs.takeWhile Text.isDecimalDigit

/-- The fraction at the head of a text, after its point; none if no digit follows. -/
def fractionChars : List Char → List Char
  | '.' :: cs => digitChars cs
  | _ => []

/-- The exponent at the head of a text: its sign and digits, and how many characters it takes. -/
def exponentPart? : List Char → Option (Bool × List Char × Nat)
  | c :: cs =>
    if c = 'e' ∨ c = 'E' then
      let signed := cs.take 1 = ['+'] ∨ cs.take 1 = ['-']
      let digits := digitChars (if signed then cs.drop 1 else cs)
      if digits.isEmpty then none
      else some (cs.take 1 = ['-'], digits, 1 + (if signed then 1 else 0) + digits.length)
    else none
  | [] => none

/-- The number at the head of a text, which begins with a digit, and its length. A number with a
fraction or an exponent is a double. -/
def numberAt (cs : List Char) : Number × Nat :=
  let whole := digitChars cs
  let fraction := fractionChars (cs.drop whole.length)
  let fractionLength := if fraction.isEmpty then 0 else fraction.length + 1
  match exponentPart? (cs.drop (whole.length + fractionLength)) with
  | some (negative, digits, n) =>
    let e : Int := Text.decimal digits
    (.real (.ofDecimal false (Text.decimal (whole ++ fraction))
      ((if negative then -e else e) - fraction.length)), whole.length + fractionLength + n)
  | none =>
    if fraction.isEmpty then (.int (Text.decimal whole), whole.length)
    else (.real (.ofDecimal false (Text.decimal (whole ++ fraction)) (-(fraction.length : Int))),
      whole.length + fractionLength)

/-! ## Lexemes -/

/-- How many characters of a text stand before the end of a block comment, its two marks
included. -/
def blockCommentLength? : List Char → Option Nat
  | '*' :: '/' :: _ => some 2
  | [] => none
  | _ :: cs => (blockCommentLength? cs).map (· + 1)

/-- The kind of a character that is a token by itself. -/
def punctuation? (c : Char) : Option Token.Kind :=
  if c = '\x7b' then some .openBrace
  else if c = '\x7d' then some .closeBrace
  else if c = '[' then some .openBracket
  else if c = ']' then some .closeBracket
  else if c = '(' then some .openParen
  else if c = ')' then some .closeParen
  else if c = ':' then some .colon
  else if c = ',' then some .comma
  else none

/-- A space, tab or carriage return: what may stand between tokens. -/
def isGap (c : Char) : Bool :=
  c == ' ' || c == '\t' || c == '\r'

/-- The token that begins at the character `c` on a line before `rest`: its kind and how many
characters of `rest` belong to it. -/
def lexeme (line : Nat) (c : Char) (rest : List Char) : Except Fault (Token.Kind × Nat) :=
  if c = '\n' then .ok (.newline, 0)
  else if c = '#' ∨ (c = '/' ∧ rest.take 1 = ['/']) then
    .ok (.comment, (rest.takeWhile (· != '\n')).length)
  else if c = '/' ∧ rest.take 1 = ['*'] then
    match blockCommentLength? (rest.drop 1) with
    | some n => .ok (.comment, n + 1)
    | none => .error (.atLine .unterminatedComment line)
  else if c = '"' then
    (quotedString line rest).map fun q =>
      (.string (String.ofList q.value) q.template, q.length)
  else match heredocOpening? (c :: rest) with
  | some o => (heredoc line (c :: rest) o).map fun h =>
      (.heredoc (String.ofList h.1), h.2 - 1)
  | none =>
    if Text.isDecimalDigit c then
      let (value, length) := numberAt (c :: rest)
      .ok (.number value, length - 1)
    else if isNameStart c then .ok (.ident, (rest.takeWhile isNameChar).length)
    else if c = '=' then
      if rest.take 1 = ['='] ∨ rest.take 1 = ['>'] then .ok (.operator, 1) else .ok (.equals, 0)
    else .ok ((punctuation? c).getD .operator, 0)

/-- The tokens of the rest of a text, at a place on a line, after `skip` characters that belong to
the token before. -/
def tokensFrom (place line : Nat) : Nat → List Char → Except Fault (List Token)
  | _, [] => .ok []
  | skip + 1, c :: rest => tokensFrom (place + 1) (lineAfter line c) skip rest
  | 0, c :: rest =>
    if isGap c then tokensFrom (place + 1) (lineAfter line c) 0 rest
    else match lexeme line c rest with
    | .error e => .error e
    | .ok (kind, n) =>
      match tokensFrom (place + 1) (lineAfter line c) n rest with
      | .error e => .error e
      | .ok ts =>
        .ok (⟨kind, String.ofList (c :: rest.take n), place, place + 1 + n, line⟩ :: ts)

def tokenize (text : String) : Except Fault (List Token) :=
  tokensFrom 0 0 0 text.toList

end InstanceInventory.Literal
