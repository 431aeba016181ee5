import InstanceInventory.Document.Splice

/-! # Checking a rendered document

* `Flaw`: why a document does not hold what it should.
* `flaw?`: the first flaw of a document that should hold certain keys, each as a balanced block on
  the line of its key and inside the map of instances.
-/

namespace InstanceInventory.Document
set_option autoImplicit false
open Literal (Fault)

/-- Why a document does not hold the records that it should. -/
inductive Flaw where
  | noMap
  | repeatedKeys (keys : List String)
  | otherKeys (held expected : List String)
  | unbalancedRecord (key : String)
  deriving DecidableEq, Repr

def Flaw.message : Flaw → String
  | .noMap => "Rendered document has no balanced instance map"
  | .repeatedKeys keys => "Rendered document repeats instance keys: " ++ ", ".intercalate keys
  | .otherKeys held expected =>
    "Rendered document holds " ++ Text.listing (held.map Text.quoted) ++ ", expected " ++
      Text.listing (expected.map Text.quoted)
  | .unbalancedRecord key => "Record '" ++ key ++ "' is not a balanced block"

/-- The keys that stand more than once in a list, sorted, each once. -/
def repeatedKeys (keys : List String) : List String :=
  ((keys.filter fun k => 1 < keys.count k).eraseDups).mergeSort fun a b => decide (a ≤ b)

/-- The search for the block of an entry, from the line of its key on. -/
def searchEntry (text : String) (e : Entry) : Except Fault Search :=
  locate (Text.lines text) (opensRecord e.key) e.keyLine

/-- Whether the block found for an entry opens on the line of its key and closes no later than the
map does. -/
def isBlockOf (map : Region) (e : Entry) : Search → Bool
  | .found block => block.start == e.keyLine && block.stop ≤ map.stop
  | _ => false

/-- The first entry that is no balanced block. -/
def unbalanced? (text : String) (map : Region) : List Entry → Except Fault (Option Entry)
  | [] => .ok none
  | e :: es => do
    if isBlockOf map e (← searchEntry text e) then unbalanced? text map es else return some e

/-- The first flaw of a document that should hold exactly the keys `expected`, in order. -/
def flaw? (text : String) (expected : List String) : Except Fault (Option Flaw) := do
  match ← mapRegion? text with
  | none => return some .noMap
  | some map =>
    let es ← entries text map
    let held := es.map Entry.key
    if !(repeatedKeys held).isEmpty then return some (.repeatedKeys (repeatedKeys held))
    else if held != expected then return some (.otherKeys held expected)
    else return (← unbalanced? text map es).map fun e => .unbalancedRecord e.key

/-- What there is to say about the blocks of entries, up to the first that is unbalanced. -/
def blockNotes (text : String) (map : Region) : List Entry → List String
  | [] => []
  | e :: es =>
    match searchEntry text e with
    | .ok search =>
      search.notes ++ if isBlockOf map e search then blockNotes text map es else []
    | .error _ => []

/-- What there is to say while a document is checked. -/
def checkNotes (text : String) (expected : List String) : List String :=
  mapNotes text ++
    match mapRegion? text, mapEntries text with
    | .ok (some map), .ok es =>
      let held := es.map Entry.key
      if (repeatedKeys held).isEmpty && held == expected then blockNotes text map es else []
    | _, _ => []

end InstanceInventory.Document
