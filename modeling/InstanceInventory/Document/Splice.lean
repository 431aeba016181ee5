import InstanceInventory.Document.Entry

/-! # Taking a document apart

* `stripBlankEdges`: a block without the blank lines around it.
* `Splice`: the blocks of a document that stay, and what was cut out.
* `splice`: cuts the entries with a key out of the map of instances.
* `keys`, `contains`, `extract`: what the map of instances holds.

A document without a map of instances holds nothing.
-/

namespace InstanceInventory.Document
set_option autoImplicit false
open Literal (Fault)

/-- A block without the blank lines before and after it. -/
def stripBlankEdges (block : String) : String :=
  let ls := (Text.lineChars block.toList).dropWhile Text.allBlank
  let ls := (ls.reverse.dropWhile Text.allBlank).reverse
  Text.joinLines (ls.map String.ofList)

/-- The blocks of a document that stay, in order, and the blocks that were cut out, as one. -/
structure Splice where
  remaining : List String
  removed : Option String
  deriving DecidableEq, Repr

/-- The entries of the map of instances; none if the document has no map. -/
def mapEntries (text : String) : Except Fault (List Entry) := do
  match ← mapRegion? text with
  | none => return []
  | some r => entries text r

/-- Whether an entry has the key that is to be cut out, if there is one. -/
def Entry.isTarget (target : Option String) (e : Entry) : Bool :=
  target == some e.key

/-- Splits the entries of the map of instances into those that stay, word for word, and those with
the key `target`. -/
def splice (text : String) (target : Option String) : Except Fault Splice :=
  (mapEntries text).map fun es =>
    let block := fun e : Entry => stripBlankEdges (e.text text)
    let removed := (es.filter (Entry.isTarget target)).map block
    { remaining := (es.filter fun e => !e.isTarget target).map block
      removed := if removed.isEmpty then none else some (Text.joinLines removed) }

def keys (text : String) : Except Fault (List String) :=
  (mapEntries text).map fun es => es.map Entry.key

def contains (text key : String) : Except Fault Bool :=
  (keys text).map fun ks => ks.contains key

/-- The block of a key, if the map of instances holds it. -/
def extract (text key : String) : Except Fault (Option String) :=
  (splice text (some key)).map Splice.removed

/-- What there is to say while the map of instances is looked for and scanned. -/
def mapNotes (text : String) : List String :=
  match findMap text with
  | .ok search => search.notes ++
    match search.region? with
    | some r => entryNotes text r
    | none => []
  | .error _ => []

end InstanceInventory.Document
