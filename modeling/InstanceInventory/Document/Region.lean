import InstanceInventory.Document.LinePattern
import InstanceInventory.Literal.Lexer

/-! # Balanced regions

* `Region`: a pair of braces that match, with the lines they stand on.
* `Search`: the outcome of looking for the region that opens on a certain line.
* `locate`: the search over lines. Only brace tokens count, so a brace in a string, a heredoc or a
  comment never opens or closes anything.
* `locateAmong`: the search over lines that may hold newlines.
* `findMap`, `requireMap`: the map of instances of a document.
-/

namespace InstanceInventory.Document
set_option autoImplicit false
open Literal (Token Fault SyntaxError tokenize)

/-- A region between two braces: their lines, the place after the opening brace and the place of
the closing one. -/
structure Region where
  start : Nat
  stop : Nat
  openOffset : Nat
  closeOffset : Nat
  deriving DecidableEq, Repr

/-- What a search for a region comes to. -/
inductive Search where
  /-- The text cannot be split into tokens. -/
  | unreadable (e : SyntaxError)
  /-- No line opens the region. -/
  | absent
  /-- The region opens on a line and never closes. -/
  | unclosed (line : Nat)
  | found (r : Region)
  deriving DecidableEq, Repr

namespace Search

def region? : Search → Option Region
  | .found r => some r
  | _ => none

def notes : Search → List String
  | .unreadable e => ["Document cannot be scanned: " ++ e.message]
  | .unclosed line => ["Region opened on line " ++ countText (line + 1) ++ " never closes"]
  | _ => []

end Search

/-! ## Searching tokens -/

/-- The first opening brace on a line that is accepted, with the tokens after it. -/
def openingBrace? (accepts : Nat → Bool) : List Token → Option (Token × List Token)
  | [] => none
  | t :: ts =>
    if t.kind matches .openBrace && accepts t.line then some (t, ts) else openingBrace? accepts ts

/-- The closing brace that leaves no brace open, where `braces` are open besides the first. -/
def closingBrace? (braces : Nat) : List Token → Option Token
  | [] => none
  | t :: ts =>
    match t.kind, braces with
    | .openBrace, n => closingBrace? (n + 1) ts
    | .closeBrace, 0 => some t
    | .closeBrace, n + 1 => closingBrace? n ts
    | _, n => closingBrace? n ts

def searchTokens (accepts : Nat → Bool) (ts : List Token) : Search :=
  match openingBrace? accepts ts with
  | none => .absent
  | some (opening, rest) =>
    match closingBrace? 0 rest with
    | none => .unclosed opening.line
    | some closing => .found ⟨opening.line, closing.line, opening.stop, closing.start⟩

/-- A search in a text, where a text that cannot be split into tokens is an outcome. -/
def searchText (accepts : Nat → Bool) (text : String) : Except Fault Search :=
  match tokenize text with
  | .ok ts => .ok (searchTokens accepts ts)
  | .error (.malformed e) => .ok (.unreadable e)
  | .error e => .error e

/-- The region that opens on the first line, from `start` on, that holds an opening brace and
satisfies a predicate. -/
def locate (lines : List String) (p : String → Bool) (start : Nat) : Except Fault Search :=
  searchText (fun n => start ≤ n && (lines[n]?).any p) (Text.joinLines lines)

/-- Whether a search meets an opening brace on a line past the first `count` before the region
opens. -/
def passesLines (count start : Nat) (accepts : Nat → Bool) : List Token → Bool
  | [] => false
  | t :: ts =>
    if t.kind matches .openBrace && start ≤ t.line then
      count ≤ t.line || (!accepts t.line && passesLines count start accepts ts)
    else passesLines count start accepts ts

/-- The search over lines that may hold newlines themselves, so that the text has more lines than
there are; `none` if it meets an opening brace past the last of them. -/
def locateAmong (lines : List String) (p : String → Bool) (start : Nat) :
    Except Fault (Option Search) :=
  match tokenize (Text.joinLines lines) with
  | .ok ts =>
    if passesLines lines.length start (fun n => (lines[n]?).any p) ts then .ok none
    else (locate lines p start).map some
  | .error _ => (locate lines p start).map some

/-! ## The map of instances -/

def findMap (text : String) : Except Fault Search :=
  locate (Text.lines text) opensInstanceMap 0

/-- The region of the map of instances, if the document has one that is whole. -/
def mapRegion? (text : String) : Except Fault (Option Region) :=
  (findMap text).map Search.region?

/-- Why a document with a map of instances is broken. -/
inductive Imbalance where
  | unreadable (e : SyntaxError)
  | neverCloses (line : Nat)
  deriving DecidableEq, Repr

def Imbalance.message : Imbalance → String
  | .unreadable e => "Configuration cannot be scanned: " ++ e.message
  | .neverCloses line => "Instance map opened on line " ++ countText (line + 1) ++ " never closes"

/-- The region of the map of instances; `none` if no line of the document looks like the opening of
a map, and an imbalance if one does and there is no region all the same. -/
def requireMap (text : String) : Except Fault (Except Imbalance (Option Region)) :=
  match findMap text with
  | .error e => .error e
  | .ok (.unreadable e) => .ok (.error (.unreadable e))
  | .ok search =>
    match (Text.lines text).findIdx? opensInstanceMap, search.region? with
    | none, _ => .ok (.ok none)
    | some _, some r => .ok (.ok (some r))
    | some line, none => .ok (.error (.neverCloses line))

/-- What there is to say while the map of instances is required: a map that opens and never closes
is noted when a line looks like its opening. -/
def requireMapNotes (text : String) : List String :=
  match findMap text with
  | .ok (.unclosed line) => (Search.unclosed line).notes
  | _ => []

end InstanceInventory.Document
