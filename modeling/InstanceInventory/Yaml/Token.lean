import InstanceInventory.Yaml.ScalarText

/-! # YAML tokens

* `Token`: the pieces of a YAML text, with marks where blocks begin and end.
* `Scan`: the state of the scan: the place, the open indentations and the places where a simple key
  may have begun.
* `Scan.fill`: reads on until the next token is settled.
* `Scan.next`: takes the next token.

A key in a mapping is only known by the colon after it. The scan notes where a key may have begun
and puts the marks in front of it once the colon comes. It reads no further than the next token
needs, so what is wrong with a text is found in the order of the text.
-/

namespace InstanceInventory.Yaml
set_option autoImplicit false

/-- A piece of a YAML text. -/
inductive Token where
  | versionDirective (major : Nat)
  | tagDirective (handle shorthand : String)
  | otherDirective
  | documentStart | documentEnd
  | blockSequenceStart | blockMappingStart | blockEnd
  | flowSequenceStart | flowSequenceEnd | flowMappingStart | flowMappingEnd
  | blockEntry | flowEntry | key | value
  | alias (name : String)
  | anchor (name : String)
  | tag (handle : Option String) (suffix : String)
  | scalar (text : String) (plain : Bool)
  deriving DecidableEq, Repr, Inhabited

/-- A place where a simple key may have begun: the number of its first token, and whether the
indentation leaves no other reading. -/
structure PossibleKey where
  tokenNumber : Nat
  required : Bool
  index : Nat
  line : Nat
  column : Nat
  deriving Repr

/-- The state of a scan. A simple key may have begun in the innermost collection and in each one
around it, of which there is one for each open flow collection. The tokens in the queue have been
read and not yet taken. -/
structure Scan where
  cursor : Cursor
  indent : Int
  outerIndents : List Int
  possibleKey : Option PossibleKey
  outerKeys : List (Option PossibleKey)
  mayStartKey : Bool
  taken : Nat
  queue : List Token
  isFinished : Bool

namespace Scan

def ofText (s : String) : Scan :=
  { cursor := (let c := Cursor.ofText s; if c.isAt '\uFEFF' then c.next else c)
    indent := -1, outerIndents := [], possibleKey := none, outerKeys := []
    mayStartKey := true, taken := 0, queue := [], isFinished := false }

def inFlow (s : Scan) : Bool :=
  !s.outerKeys.isEmpty

def push (s : Scan) (t : Token) : Scan :=
  { s with queue := s.queue ++ [t] }

def take (s : Scan) (n : Nat) (t : Token) : Scan :=
  { s.push t with cursor := s.cursor.advance n }

/-- The number of the token after those that have been read. -/
def nextNumber (s : Scan) : Nat :=
  s.taken + s.queue.length

def insertAt (s : Scan) (number : Nat) (t : Token) : Scan :=
  let place := number - s.taken
  { s with queue := s.queue.take place ++ t :: s.queue.drop place }

/-! ## Indentation -/

def closeBlocks (column : Int) (s : Scan) : List Int → Scan
  | [] => s
  | outer :: rest =>
    if column < s.indent then
      closeBlocks column { s.push .blockEnd with indent := outer, outerIndents := rest } rest
    else s

/-- Closes the blocks that are indented deeper than a column, outside of flow collections. -/
def unwind (column : Int) (s : Scan) : Scan :=
  if s.inFlow then s else s.closeBlocks column s.outerIndents

/-- Opens a block at a column, before the token of a number, if it is indented deeper than the
blocks around it. -/
def openBlock (column : Nat) (t : Token) (number : Nat) (s : Scan) : Scan :=
  if s.indent < column then
    { s.insertAt number t with indent := column, outerIndents := s.indent :: s.outerIndents }
  else s

/-! ## Simple keys -/

/-- Gives up the place where a simple key may have begun. -/
def dropKey (s : Scan) : Except Fault Scan :=
  if s.possibleKey.any (·.required) then .error .malformed
  else .ok { s with possibleKey := none }

/-- Notes that a simple key may begin here. -/
def noteKey (s : Scan) : Except Fault Scan :=
  if s.mayStartKey then do
    let required := !s.inFlow && s.indent == s.cursor.column
    let s ← s.dropKey
    let k : PossibleKey :=
      ⟨s.nextNumber, required, s.cursor.index, s.cursor.line, s.cursor.column⟩
    return { s with possibleKey := some k }
  else .ok s

/-- Whether a simple key that began at a place can no longer get its colon: it stays on one line and
within 1024 characters. -/
def isStale (c : Cursor) (k : PossibleKey) : Bool :=
  k.line != c.line || 1024 < c.index - k.index

/-- Gives up the places whose keys can no longer get their colons. -/
def dropStaleKeys (s : Scan) : Except Fault Scan :=
  let stale := fun k? : Option PossibleKey => k?.any (isStale s.cursor)
  let required := fun k? : Option PossibleKey => stale k? && k?.any (·.required)
  if required s.possibleKey || s.outerKeys.any required then .error .malformed
  else
    let keep := fun k? => if stale k? then none else k?
    .ok { s with possibleKey := keep s.possibleKey, outerKeys := s.outerKeys.map keep }

/-! ## Directives, anchors and tags -/

/-- The digits at a place as a number, and the place after them. -/
def number? (c : Cursor) : Option (Nat × Cursor) :=
  let (digits, c) := c.takeWhile Char.isDigit
  if digits.isEmpty then none else some (Text.decimal digits, c)

/-- The handle of a tag at a place: two exclamation marks around a word, or one alone. A directive
must write both. -/
def tagHandle? (c : Cursor) : Option (String × Cursor) :=
  if !c.isAt '!' then none
  else if c.next.isAt ' ' then some ("!", c.next)
  else
    let (word, after) := c.next.takeWhile isWordChar
    if after.isAt '!' then some (String.ofList ('!' :: (word ++ ['!'])), after.next) else none

/-- A character of the written form of a tag. -/
def isTagChar (c : Char) : Bool :=
  c.isAlphanum || "-;/?:@&=+$,_.!~*'()[]%".toList.contains c

/-- The bytes that escapes at the head of a text write, and how many characters those take. -/
def escapedBytes : List Char → Option (List UInt8 × Nat)
  | '%' :: a :: b :: rest =>
    if Literal.isHexDigit a && Literal.isHexDigit b then
      (escapedBytes rest).map fun r => ((Literal.hexNumber [a, b]).toUInt8 :: r.1, r.2 + 3)
    else none
  | '%' :: _ => none
  | _ => some ([], 0)

def tagTextFrom : Nat → Cursor → Option (List Char × Cursor)
  | 0, c => some ([], c)
  | rounds + 1, c =>
    match c.peek? with
    | some '%' => do
      let (bytes, n) ← escapedBytes c.rest
      let text ← String.fromUTF8? ⟨bytes.toArray⟩
      let (more, c) ← tagTextFrom rounds (c.advance n)
      return (text.toList ++ more, c)
    | some x =>
      if isTagChar x then (tagTextFrom rounds c.next).map fun r => (x :: r.1, r.2)
      else some ([], c)
    | none => some ([], c)

/-- The written form of a tag at a place, which must not be empty. -/
def tagText? (c : Cursor) : Option (String × Cursor) := do
  let (text, c) ← tagTextFrom (c.rest.length + 1) c
  if text.isEmpty then none else some (String.ofList text, c)

/-- The directive at a place and the place after its line. -/
def directive? (c : Cursor) : Option (Token × Cursor) := do
  let (name, c) := c.next.takeWhile isWordChar
  if name.isEmpty || !atSpace c.rest then none
  else if name == "YAML".toList then
    let (major, c) ← number? (c.skipWhile (· == ' '))
    if !c.isAt '.' then none
    else
      let (_, c) ← number? c.next
      if !atSpace c.rest then none else return (.versionDirective major, ← c.finishLine?)
  else if name == "TAG".toList then
    let (handle, c) ← tagHandle? (c.skipWhile (· == ' '))
    if !c.isAt ' ' then none
    else
      let (lead, c) ← tagText? (c.skipWhile (· == ' '))
      if !atSpace c.rest then none else return (.tagDirective handle lead, ← c.finishLine?)
  else return (.otherDirective, ← (c.skipWhile fun x => !isBreak x).finishLine?)

/-- The name of an anchor or alias after its mark, and the place after it. -/
def anchorName? (c : Cursor) : Option (String × Cursor) :=
  let (name, c) := c.next.takeWhile isWordChar
  let ends := atWhite c.rest || c.peek?.any "?:,]\x7d%@\x60".toList.contains
  if name.isEmpty || !ends then none else some (String.ofList name, c)

def tag? (c : Cursor) : Option (Token × Cursor) := do
  let (t, c) ←
    if c.next.isAt '<' then do
      let (text, c) ← tagText? (c.advance 2)
      if c.isAt '>' then some (Token.tag none text, c.next) else none
    else if atWhite c.next.rest then some (Token.tag none "!", c.next)
    else if (c.next.rest.takeWhile fun x => !isBreak x && x != ' ').contains '!' then do
      let (handle, c) ← tagHandle? c
      let (text, c) ← tagText? c
      some (Token.tag (some handle) text, c)
    else do
      let (text, c) ← tagText? c.next
      some (Token.tag (some "!") text, c)
  if atSpace c.rest then some (t, c) else none

/-! ## Tokens -/

/-- Passes spaces, comments and line breaks before a token. -/
def skipToToken : Nat → Scan → Scan
  | 0, s => s
  | rounds + 1, s =>
    let c := s.cursor.skipWhile (· == ' ')
    let c := if c.isAt '#' then c.skipWhile fun x => !isBreak x else c
    match c.lineBreak? with
    | some (_, c) =>
      skipToToken rounds { s with cursor := c, mayStartKey := s.mayStartKey || !s.inFlow }
    | none => { s with cursor := c }

def openFlow (s : Scan) (t : Token) : Except Fault Scan := do
  let s ← s.noteKey
  return { s.take 1 t with
    possibleKey := none, outerKeys := s.possibleKey :: s.outerKeys, mayStartKey := true }

def closeFlow (s : Scan) (t : Token) : Except Fault Scan := do
  let s ← s.dropKey
  match s.outerKeys with
  | [] => throw .malformed
  | k? :: outer =>
    return { s.take 1 t with possibleKey := k?, outerKeys := outer, mayStartKey := false }

def blockEntry (s : Scan) : Except Fault Scan := do
  if !s.inFlow && !s.mayStartKey then throw .malformed
  else
    let s := if s.inFlow then s
      else s.openBlock s.cursor.column .blockSequenceStart s.nextNumber
    let s ← { s with mayStartKey := true }.dropKey
    return s.take 1 .blockEntry

def explicitKey (s : Scan) : Except Fault Scan := do
  if !s.inFlow && !s.mayStartKey then throw .malformed
  else
    let s := if s.inFlow then s
      else s.openBlock s.cursor.column .blockMappingStart s.nextNumber
    let s ← { s with mayStartKey := !s.inFlow }.dropKey
    return s.take 1 .key

/-- The colon before a value: it makes a key of what may have been one. -/
def valueMark (s : Scan) : Except Fault Scan :=
  match s.possibleKey with
  | some k =>
    let s := { s.insertAt k.tokenNumber .key with possibleKey := none, mayStartKey := false }
    let s := if s.inFlow then s else s.openBlock k.column .blockMappingStart k.tokenNumber
    .ok (s.take 1 .value)
  | none => do
    if !s.inFlow && !s.mayStartKey then throw .malformed
    else
      let s := if s.inFlow then s
        else s.openBlock s.cursor.column .blockMappingStart s.nextNumber
      let s ← { s with mayStartKey := !s.inFlow }.dropKey
      return s.take 1 .value

/-- Adds a token that may be a simple key, unless it is malformed. -/
def node (s : Scan) (t? : Option (Token × Cursor)) : Except Fault Scan := do
  let s ← s.noteKey
  match t? with
  | some (t, c) => return { s.push t with cursor := c, mayStartKey := false }
  | none => throw .malformed

/-- Ends all blocks and adds a token that stands between documents. -/
def betweenDocuments (s : Scan) (t? : Option (Token × Cursor)) : Except Fault Scan := do
  let s ← (s.unwind (-1)).dropKey
  match t? with
  | some (t, c) => return { s.push t with cursor := c, mayStartKey := false }
  | none => throw .malformed

/-- Whether a plain scalar can begin at a place. -/
def startsPlain (inFlow : Bool) (c : Cursor) : Bool :=
  match c.rest with
  | [] => false
  | x :: rest =>
    !(isBreak x || isWhite x || "-?:,[]\x7b\x7d#&*!|>'\"%@\x60".toList.contains x) ||
      (!atWhite rest && (x == '-' || (!inFlow && (x == '?' || x == ':'))))

/-- Adds the token at the place of the scan, which is not at the end of the text. -/
def token (s : Scan) (x : Char) : Except Fault Scan :=
  let c := s.cursor
  let spaced := atWhite c.next.rest
  let atMargin := c.column == 0
  if x == '%' && atMargin then s.betweenDocuments (directive? c)
  else if atMargin && c.isAtMark '-' then s.betweenDocuments (some (.documentStart, c.advance 3))
  else if atMargin && c.isAtMark '.' then s.betweenDocuments (some (.documentEnd, c.advance 3))
  else if x == '[' then s.openFlow .flowSequenceStart
  else if x == '\x7b' then s.openFlow .flowMappingStart
  else if x == ']' then s.closeFlow .flowSequenceEnd
  else if x == '\x7d' then s.closeFlow .flowMappingEnd
  else if x == ',' then do
    let s ← { s with mayStartKey := true }.dropKey
    return s.take 1 .flowEntry
  else if x == '-' && spaced then s.blockEntry
  else if x == '?' && (s.inFlow || spaced) then s.explicitKey
  else if x == ':' && (s.inFlow || spaced) then s.valueMark
  else if x == '*' then s.node ((anchorName? c).map fun n => (.alias n.1, n.2))
  else if x == '&' then s.node ((anchorName? c).map fun n => (.anchor n.1, n.2))
  else if x == '!' then s.node (tag? c)
  else if (x == '|' || x == '>') && !s.inFlow then do
    let s ← { s with mayStartKey := true }.dropKey
    let (text, c) ← blockScalar (x == '>') s.indent s.cursor
    return { s.push (.scalar (String.ofList text) false) with cursor := c }
  else if x == '\'' || x == '"' then do
    let s ← s.noteKey
    let (text, c) ← quotedScalar x c
    return { s.push (.scalar (String.ofList text) false) with cursor := c, mayStartKey := false }
  else if startsPlain s.inFlow c then do
    let s ← s.noteKey
    let p := plainScalar s.inFlow (s.indent + 1) c
    return { s.push (.scalar (String.ofList p.text) true) with
      cursor := p.after, mayStartKey := p.passedBreak }
  else .error .malformed

/-- Reads on by one step. At the end of the text all blocks are closed. -/
def step (s : Scan) : Except Fault Scan := do
  let s ← (s.skipToToken (s.cursor.rest.length + 1)).dropStaleKeys
  let s := s.unwind s.cursor.column
  match s.cursor.peek? with
  | some x => s.token x
  | none => do
    let s ← (s.unwind (-1)).dropKey
    return { s with
      outerKeys := s.outerKeys.map fun _ => none, mayStartKey := false, isFinished := true }

/-- Whether the next token may still turn out to be the beginning of a key. -/
def mayBeKey (s : Scan) : Bool :=
  (s.possibleKey :: s.outerKeys).any fun k? => k?.any (·.tokenNumber == s.taken)

/-- Reads on until the next token is settled or the text is at its end. Each round takes characters,
so that one more round than there are characters left is enough. -/
def fillFor : Nat → Scan → Except Fault Scan
  | 0, s => .ok s
  | rounds + 1, s =>
    if s.isFinished then .ok s
    else if s.queue.isEmpty then do fillFor rounds (← s.step)
    else do
      let s ← s.dropStaleKeys
      if s.mayBeKey then fillFor rounds (← s.step) else return s

/-- Reads on until the next token is settled or the text is at its end. -/
def fill (s : Scan) : Except Fault Scan :=
  s.fillFor (s.cursor.rest.length + 2)

def next (s : Scan) : Scan :=
  { s with taken := s.taken + 1, queue := s.queue.tail }

end Scan

/-- A character that may stand in a YAML text. -/
def isAllowed (c : Char) : Bool :=
  c == '\t' || c == '\n' || c == '\r' || (0x20 ≤ c.toNat && c.toNat ≤ 0x7E) || c == '\u0085' ||
    (0xA0 ≤ c.toNat && c.toNat ≤ 0xFFFD) || 0x10000 ≤ c.toNat

/-- The scan of a text, which must hold allowed characters only. -/
def Scan.begin (text : String) : Except Fault Scan :=
  if text.toList.all isAllowed then .ok (.ofText text) else .error .malformed

end InstanceInventory.Yaml
