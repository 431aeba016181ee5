import InstanceInventory.Fault
import InstanceInventory.Files.Path
import InstanceInventory.Text.Split

/-! # The file system

* `Node`: a file with its bytes and mode, or a directory with its mode.
* `Tree`: the files and directories by their places.
* `place`: where a path leads; each part before the last must be a directory that is there.
* `look`: what stands where a path leads, if anything does.
* `readText`, `writeBytes`, `makeDirectories`, `copyFile`, `remove`: the operations.
* `changes`: what differs between two states.
-/

namespace InstanceInventory.Files
set_option autoImplicit false

/-- A file with its bytes and permission bits, or a directory with its permission bits. -/
inductive Node where
  | file (bytes : ByteArray) (mode : Nat)
  | directory (mode : Nat)
  deriving Inhabited

/-- A place in the file system: the parts of the path that leads there from the root. -/
abbrev Place := List String

/-- The files and directories by their places. The root is a directory. -/
structure Tree where
  entries : List (Place × Node)
  deriving Inhabited

namespace Tree

def empty : Tree := ⟨[]⟩

def defaultMode : Nat := 0o644

def directoryMode : Nat := 0o755

def newDirectory : Node := .directory directoryMode

/-! ## Places -/

def node? (t : Tree) (p : Place) : Option Node :=
  if p.isEmpty then some newDirectory else (t.entries.find? (·.1 == p)).map (·.2)

def hasDirectory (t : Tree) (p : Place) : Bool :=
  match t.node? p with
  | some (.directory _) => true
  | _ => false

/-- Puts a node at a place, over what stands there. -/
def put (t : Tree) (p : Place) (n : Node) : Tree :=
  if t.entries.any (·.1 == p) then
    ⟨t.entries.map fun e => if e.1 == p then (p, n) else e⟩
  else ⟨t.entries ++ [(p, n)]⟩

/-- Removes a place and everything below it. -/
def erase (t : Tree) (p : Place) : Tree :=
  ⟨t.entries.filter fun e => !p.isPrefixOf e.1⟩

/-- The longest name of a file, in bytes. -/
def longestName : Nat := 255

/-- The longest path, in bytes. -/
def longestPath : Nat := 4095

/-- Where parts lead from the directory `before`. Every part but the last must lead to a directory
that is there, and no part may be too long. -/
def placeFrom (t : Tree) (before : Place) : List String → Except FileFault Place
  | [] => .ok before
  | part :: rest =>
    match t.node? before with
    | none => .error .notFound
    | some (.file ..) => .error .notDirectory
    | some (.directory _) =>
      if longestName < part.utf8ByteSize then .error .nameTooLong
      else t.placeFrom (if part == ".." then before.dropLast else before ++ [part]) rest

/-- What is wrong with a path whatever the files are. -/
def pathFlaw? (p : Path) : Option FileFault :=
  if p.holdsNull then some .nullCharacter
  else if longestPath < p.text.utf8ByteSize then some .nameTooLong
  else none

/-- Where a path from the root leads. -/
def place (t : Tree) (p : Path) : Except FileFault Place :=
  match pathFlaw? p with
  | some f => .error f
  | none => t.placeFrom [] p.parts

/-- What stands where a path leads. -/
def at? (t : Tree) (p : Path) : Option Node :=
  match t.place p with
  | .ok place => t.node? place
  | .error _ => none

/-- What stands where a path leads, if anything does. A path that is too long cannot be looked
up. -/
def look (t : Tree) (p : Path) : Except FileFault (Option Node) :=
  match t.place p with
  | .error .nameTooLong => .error .nameTooLong
  | _ => .ok (t.at? p)

/-- Whether anything stands where a path leads. -/
def isThere (t : Tree) (p : Path) : Except FileFault Bool :=
  (t.look p).map Option.isSome

def isFile (t : Tree) (p : Path) : Except FileFault Bool :=
  (t.look p).map fun
    | some (.file ..) => true
    | _ => false

def isDirectory (t : Tree) (p : Path) : Except FileFault Bool :=
  (t.look p).map fun
    | some (.directory _) => true
    | _ => false

/-- Whether a path leads to a directory; one that cannot be looked up does not. -/
def leadsToDirectory (t : Tree) (p : Path) : Bool :=
  match t.at? p with
  | some (.directory _) => true
  | _ => false

/-! ## Reading -/

def file (t : Tree) (p : Path) : Except FileFault (ByteArray × Nat) := do
  match t.node? (← t.place p) with
  | some (.file bytes mode) => return (bytes, mode)
  | some (.directory _) => throw .isDirectory
  | none => throw .notFound

/-- The text of a file, with every line ending as one newline. -/
def readText (t : Tree) (p : Path) : Except FileFault String := do
  match String.fromUTF8? (← t.file p).1 with
  | some s => return Text.unifyNewlines s
  | none => throw .undecodable

def mode (t : Tree) (p : Path) : Except FileFault Nat := do
  match t.node? (← t.place p) with
  | some (.file _ mode) | some (.directory mode) => return mode
  | none => throw .notFound

/-! ## Writing -/

/-- Creates a directory where a path leads; its parent must be there. -/
def makeDirectory (t : Tree) (p : Path) : Except FileFault Tree := do
  let place ← t.place p
  match t.node? place with
  | some _ => throw .alreadyExists
  | none =>
    if t.hasDirectory place.dropLast then return t.put place newDirectory
    else throw .notFound

/-- Creates the directories on the way to a path, the first `n` parts of it and on. -/
def makeParts (t : Tree) (p : Path) : Nat → Except FileFault Tree
  | 0 => .ok t
  | n + 1 => do
    let here : Path := { p with parts := p.parts.take (p.parts.length - n) }
    match t.at? here with
    | some (.directory _) => t.makeParts p n
    | some (.file ..) => if n = 0 then throw .alreadyExists else throw .notDirectory
    | none => (← t.makeDirectory here).makeParts p n

/-- Creates a directory and those above it that are not there; one that is there stays. -/
def makeDirectories (t : Tree) (p : Path) : Except FileFault Tree :=
  match pathFlaw? p with
  | some f => .error f
  | none => t.makeParts p p.parts.length

/-- Writes a file, with a mode if it is new and with its own if it is there. -/
def writeBytes (t : Tree) (p : Path) (bytes : ByteArray) : Except FileFault Tree := do
  let place ← t.place p
  match t.node? place with
  | some (.directory _) => throw .isDirectory
  | some (.file _ mode) => return t.put place (.file bytes mode)
  | none =>
    if t.hasDirectory place.dropLast then return t.put place (.file bytes defaultMode)
    else throw .notFound

/-- Copies a file with its mode; into a directory it is copied under its own name. A file cannot be
copied onto itself. The second part is the path of the copy. -/
def copyFile (t : Tree) (source target : Path) : Except FileFault (Tree × Path) := do
  let (bytes, mode) ← t.file source
  let target := if t.leadsToDirectory target then target.child source.name else target
  let place ← t.place target
  if place == (← t.place source) then throw .sameFile
  match t.node? place with
  | some (.directory _) => throw .isDirectory
  | _ =>
    if t.hasDirectory place.dropLast then return (t.put place (.file bytes mode), target)
    else throw .notFound

/-- Gives what stands where a path leads another mode; only permission bits count. -/
def setMode (t : Tree) (p : Path) (mode : Nat) : Except FileFault Tree := do
  let place ← t.place p
  match t.node? place with
  | some (.file bytes _) => return t.put place (.file bytes (mode % 0o1000))
  | some (.directory _) => return t.put place (.directory (mode % 0o1000))
  | none => throw .notFound

/-- Removes a file, or a directory with everything in it. -/
def remove (t : Tree) (p : Path) : Except FileFault Tree := do
  let place ← t.place p
  match t.node? place with
  | some _ => return t.erase place
  | none => throw .notFound

/-! ## Comparing -/

/-- The entries below a directory, by their places from there. -/
def below (t : Tree) (directory : Place) : List (Place × Node) :=
  t.entries.filterMap fun e =>
    if directory.isPrefixOf e.1 && e.1 != directory then
      some (e.1.drop directory.length, e.2)
    else none

/-- Whether two nodes have the same content; the mode does not count. -/
def sameContent : Node → Node → Bool
  | .file a _, .file b _ => a == b
  | .directory _, .directory _ => true
  | _, _ => false

/-- The entries of a state that are new or have another content than in the state before. -/
def changes (before after : Tree) (directory : Place) : List (Place × Node) :=
  let old := before.below directory
  (after.below directory).filter fun e =>
    !(old.any fun o => o.1 == e.1 && sameContent o.2 e.2)

/-- The entries of a state that are not there in the state after. -/
def losses (before after : Tree) (directory : Place) : List (Place × Node) :=
  let new := after.below directory
  (before.below directory).filter fun e => !(new.any fun o => o.1 == e.1)

end Tree
end InstanceInventory.Files
