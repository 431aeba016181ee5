import InstanceInventory.Document.Region

/-! # Entries of a region

* `Entry`: one entry at the top of a region, with the part of the text that belongs to it.
* `entriesFrom`: the entries among the tokens of a region. The scan never looks inside a value: it
  goes from the sign after a key to the end of the value and on from there.
* `entries`: the entries of a region of a document.

An entry takes the comment lines directly above it and its own line's indentation along, and after
its value a comma and a comment on the line where the value ends.
-/

namespace InstanceInventory.Document
set_option autoImplicit false
open Literal (Token Fault tokenize)

/-- One entry at the top of a region: its key, the line of the key, and the places where its part
of the text begins and ends. -/
structure Entry where
  key : String
  keyLine : Nat
  start : Nat
  stop : Nat
  deriving DecidableEq, Repr

def slice (cs : List Char) (start stop : Nat) : List Char :=
  (cs.drop start).take (stop - start)

def Entry.text (e : Entry) (source : String) : String :=
  String.ofList (slice source.toList e.start e.stop)

/-- What the scan of a region meets: an entry, or a key with a sign and no value after it. -/
inductive Item where
  | entry (e : Entry)
  | valueless (key : String) (line : Nat)
  deriving DecidableEq, Repr

namespace Item

def entry? : Item → Option Entry
  | .entry e => some e
  | .valueless .. => none

def notes : Item → List String
  | .entry _ => []
  | .valueless key line =>
    ["Entry '" ++ key ++ "' on line " ++ countText (line + 1) ++ " has no value"]

end Item

/-! ## Lines -/

/-- The characters on the line before a place, from the last to the first. -/
def lineBefore (cs : List Char) (place : Nat) : List Char :=
  (cs.take place).reverse.takeWhile (· != '\n')

def lineStart (cs : List Char) (place : Nat) : Nat :=
  place - (lineBefore cs place).length

/-- Whether only blanks stand before a place on its line. -/
def firstOnLine (cs : List Char) (place : Nat) : Bool :=
  Text.allBlank (lineBefore cs place)

/-! ## Values -/

/-- A token that can end a value: a newline, a comma or a comment. -/
def endsValue (t : Token) : Bool :=
  match t.kind with
  | .newline | .comma | .comment => true
  | _ => false

/-- A token that is part of what a value says: anything but a newline or a comment. -/
def isSubstance (t : Token) : Bool :=
  match t.kind with
  | .newline | .comment => false
  | _ => true

def depthAfter (depth : Int) (t : Token) : Int :=
  if t.kind.isOpener then depth + 1 else if t.kind.isCloser then depth - 1 else depth

/-- The end of a value: its last token, how many tokens were passed, and the tokens from there. -/
structure ValueEnd where
  last : Option Token
  passed : Nat
  rest : List Token

/-- Reads on in a value at a nesting depth, after its last token of substance so far: the value goes
on until a token at depth zero that can end it. -/
def valueEnd (depth : Int) (last : Option Token) (passed : Nat) : List Token → ValueEnd
  | [] => ⟨last, passed, []⟩
  | t :: ts =>
    if depth = 0 ∧ last.isSome ∧ endsValue t then ⟨last, passed, t :: ts⟩
    else valueEnd (depthAfter depth t) (if isSubstance t then some t else last) (passed + 1) ts

/-- What may follow a value and belongs to its entry: a comma, then a comment on the line `line`;
where the entry ends then, and how many tokens that takes. -/
def entryTail (line stop : Nat) (ts : List Token) : Nat × Nat :=
  let (stop, taken, ts) := match ts with
    | t :: ts' => if t.kind matches .comma then (t.stop, 1, ts') else (stop, 0, t :: ts')
    | [] => (stop, 0, [])
  match ts with
  | t :: _ =>
    if t.kind matches .comment && t.line == line then (t.stop, taken + 1) else (stop, taken)
  | [] => (stop, taken)

/-! ## Scanning -/

/-- The key that a token writes, if it can be a key. -/
def keyOf? (t : Token) : Option String :=
  match t.kind with
  | .ident => some t.text
  | .string value _ => some value
  | _ => none

/-- The sign between a key and its value. -/
def isAssignment (t : Token) : Bool :=
  match t.kind with
  | .equals | .colon => true
  | _ => false

/-- Where the part of the text that belongs to an entry begins: at the comments above it, else at
the beginning of the key's line, unless something else stands before the key there. -/
def entryStart (cs : List Char) (comment : Option Nat) (key : Token) : Nat :=
  match comment with
  | some place => place
  | none => if firstOnLine cs key.start then lineStart cs key.start else key.start

/-- Where the comments above the next entry begin, after a comment token. -/
def commentStart (cs : List Char) (comment : Option Nat) (t : Token) : Option Nat :=
  if comment.isNone && firstOnLine cs t.start then some (lineStart cs t.start) else comment

/-- The items among the tokens of a region, after `skip` tokens that belong to the entry before;
`comment` is the place where the comments above the next entry begin. -/
def itemsFrom (cs : List Char) (comment : Option Nat) : Nat → List Token → List Item
  | _, [] => []
  | skip + 1, _ :: ts => itemsFrom cs comment skip ts
  | 0, t :: ts =>
    match t.kind with
    | .newline => itemsFrom cs comment 0 ts
    | .comment => itemsFrom cs (commentStart cs comment t) 0 ts
    | _ =>
      match keyOf? t, ts with
      | some key, sign :: value =>
        if isAssignment sign then
          let fin := valueEnd 0 none 0 value
          match fin.last with
          | none => .valueless t.text t.line :: itemsFrom cs none (1 + fin.passed) ts
          | some last =>
            let tail := entryTail last.line last.stop fin.rest
            .entry ⟨key, t.line, entryStart cs comment t, tail.1⟩ ::
              itemsFrom cs none (1 + fin.passed + tail.2) ts
        else itemsFrom cs none 0 ts
      | _, _ => itemsFrom cs none 0 ts

def innerTokens (r : Region) (ts : List Token) : List Token :=
  ts.filter fun t => r.openOffset ≤ t.start && t.start < r.closeOffset

def items (text : String) (r : Region) : Except Fault (List Item) :=
  match tokenize text with
  | .ok ts => .ok (itemsFrom text.toList none 0 (innerTokens r ts))
  | .error (.malformed _) => .ok []
  | .error e => .error e

def entries (text : String) (r : Region) : Except Fault (List Entry) :=
  (items text r).map fun is => is.filterMap Item.entry?

/-- What there is to say while a region of a document is scanned. -/
def entryNotes (text : String) (r : Region) : List String :=
  match tokenize text with
  | .ok ts => (itemsFrom text.toList none 0 (innerTokens r ts)).flatMap Item.notes
  | .error (.malformed e) => (Search.unreadable e).notes
  | .error _ => []

end InstanceInventory.Document
