import InstanceInventory.Text.Split

/-! # Paths

* `Path`: a path, relative or from the root, by its parts.
* `Path.ofText`, `Path.text`: a path as it is written; parts that say nothing are left out.
* `Path.join`, `Path.parent`, `Path.name`, `Path.withName`: paths from paths.
* `Path.isNamed`, `Path.meansDirectory`, `Path.holdsNull`: what can be seen of a path without the files.
* `Path.normalize`, `Path.resolve`: paths without steps upward.
-/

namespace InstanceInventory.Files
set_option autoImplicit false

/-- A path. `slashes` is the number of slashes in front: none for a relative path; two are told
apart from one, and more count as one. -/
structure Path where
  slashes : Nat
  parts : List String
  deriving DecidableEq, Repr, Inhabited

namespace Path

/-- The number of slashes that count in front of a text. -/
def leadingSlashes (cs : List Char) : Nat :=
  let n := (cs.takeWhile (· == '/')).length
  if n = 2 then 2 else min n 1

def ofText (s : String) : Path :=
  let parts := (Text.splitWhen (· == '/') s.toList).map String.ofList
  ⟨leadingSlashes s.toList, parts.filter fun p => p != "" && p != "."⟩

/-- The text of a path; the path without parts is a dot. -/
def text (p : Path) : String :=
  if p.slashes = 0 && p.parts.isEmpty then "."
  else String.ofList (List.replicate p.slashes '/') ++ "/".intercalate p.parts

def isAbsolute (p : Path) : Bool :=
  p.slashes != 0

/-- A path below another one; a path from the root stands for itself. -/
def join (p q : Path) : Path :=
  if q.isAbsolute then q else ⟨p.slashes, p.parts ++ q.parts⟩

def child (p : Path) (name : String) : Path :=
  p.join (ofText name)

def parent (p : Path) : Path :=
  { p with parts := p.parts.dropLast }

/-- The last part; empty if there is none. -/
def name (p : Path) : String :=
  p.parts.getLast?.getD ""

/-- Whether the last part can be the name of a file. -/
def isNamed (p : Path) : Bool :=
  p.name != "" && p.name != "." && !p.name.toList.contains '/'

def withName (p : Path) (name : String) : Path :=
  { p with parts := p.parts.dropLast ++ [name] }

/-- Whether a text can only mean a directory: nothing or a dot stands behind its last slash. -/
def meansDirectory (s : String) : Bool :=
  match (Text.splitWhen (· == '/') s.toList).getLast? with
  | some [] | some ['.'] => true
  | _ => false

/-- Whether a path holds the character that no name may hold. -/
def holdsNull (p : Path) : Bool :=
  p.parts.any fun part => part.toList.contains '\x00'

/-! ## Steps upward -/

/-- The parts left when steps upward are taken back, after the parts `before`, which are held in
reverse; at the root a step upward leads nowhere. -/
def normalizeFrom (absolute : Bool) (before : List String) : List String → List String
  | [] => before.reverse
  | p :: ps =>
    if p == ".." then
      match before with
      | [] => normalizeFrom absolute (if absolute then [] else [p]) ps
      | b :: bs => normalizeFrom absolute (if b == ".." then p :: b :: bs else bs) ps
    else normalizeFrom absolute (p :: before) ps

/-- A path in which each step upward takes back the part before it. -/
def normalize (p : Path) : Path :=
  { p with parts := normalizeFrom p.isAbsolute [] p.parts }

/-- The path from the root that a path stands for in a directory. -/
def resolve (directory p : Path) : Path :=
  (directory.join p).normalize

def administratorHome : Path := ⟨1, ["root"]⟩

/-- A path whose first part is a tilde, below the home directory; with the administrator's name
after the tilde, below that one's home. Other names after a tilde are not known. -/
def expandHome (p home : Path) : Option Path :=
  match p.parts with
  | first :: rest =>
    if p.isAbsolute || first.toList.head? != some '~' then some p
    else if first == "~" then some (home.join ⟨0, rest⟩)
    else if first == "~root" then some (administratorHome.join ⟨0, rest⟩)
    else none
  | [] => some p

end Path
end InstanceInventory.Files
