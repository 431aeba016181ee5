import InstanceInventory.Action

/-! # The store of the document

* `Store`: where the document is kept, and where its backups go.
* `Store.readText`, `Store.write`: the text of the document. Writing replaces the whole file and
  keeps its mode.
* `Store.backup`: a copy of the document under a name that was free.
* `Store.restore`: a copy back in place of the document.
* `Store.snapshot`: copies of the document and of the state files in a directory of their own.
* `Store.openLock`, `Store.takeLock`, `Store.release`: the lock of the document.
* `Store.withLock`: an action under the lock, which is given back at every end.
-/

namespace InstanceInventory
set_option autoImplicit false

/-- Where the document is kept, and where its backups go. The document must have a name, since its
lock and its backups are named after it. -/
structure Store where
  path : Files.Path
  backupDirectory : Files.Path
  named : path.isNamed = true

/-- The files in which the state is kept, beside the document. -/
def stateFiles : List String := ["terraform.tfstate", "terraform.tfstate.backup"]

namespace Store

/-- The store of a document, which must have a name. -/
def of (path backupDirectory : Files.Path) : Except Fault Store :=
  if named : path.isNamed then .ok { path, backupDirectory, named } else .error .unnamedDocument

/-- The file whose lock guards the document. -/
def lockPath (st : Store) : Files.Path :=
  st.path.withName ("." ++ st.path.name ++ ".lock")

/-! ## The document -/

def isPresent (st : Store) (s : Session) : Except FileFault Bool :=
  s.files.isFile (s.locate st.path)

/-- The text of the document as it stands; empty where it is not there. -/
def currentText (st : Store) : Action String := do
  if !(← Action.read st.isPresent) then return ""
  let s ← get
  match s.files.readText (s.locate st.path) with
  | .ok text => return text
  | .error _ => Action.fail .general ("Failed to read " ++ st.path.text)

/-- Reads the text of the document; it is empty where the document is not there. -/
def readText (st : Store) : Action String := do
  let text ← st.currentText
  Action.did (.read text)
  return text

/-- Puts a text in place of the document, in files in which the directory of the document is there.
A document that is there keeps its mode. -/
def replace (t : Files.Tree) (p : Files.Path) (text : String) : Except FileFault Files.Tree :=
  t.writeBytes p text.toUTF8

/-- A path of the file into which a text is written before it takes the place of the document: the
name of the document and eight letters. -/
def stagingPath (st : Store) : Files.Path :=
  st.path.withName ("." ++ st.path.name ++ "." ++ String.ofList (List.replicate 8 'x'))

/-- Puts a text in place of the document; its directory is made where it is not there. There must be
room for the name of the file that holds the text first. -/
def write (st : Store) (text : String) : Action Unit := do
  Action.change fun s => s.files.makeDirectories (s.locate st.path.parent)
  let _ ← Action.read fun s => s.files.place (s.locate st.stagingPath)
  let s ← get
  match replace s.files (s.locate st.path) text with
  | .ok files =>
    set { s with files }
    Action.did (.wrote text)
  | .error _ => Action.fail .general ("Failed to write " ++ st.path.text)

/-! ## Backups -/

/-- The path of the first backup of a moment. -/
def backupBase (st : Store) (m : Moment) : Files.Path :=
  st.backupDirectory.child (st.path.name ++ ".backup." ++ m.stamp)

/-- The path of a backup among those of one moment: the first has no number. -/
def candidate (base : Files.Path) (number : Nat) : Files.Path :=
  if number = 0 then base else base.withName (base.name ++ "." ++ countText number)

/-- The first candidate from a number on that is free, among a limited number of further ones. -/
def freeFrom (isTaken : Files.Path → Except FileFault Bool) (base : Files.Path) (number : Nat) :
    Nat → Except FileFault Files.Path
  | 0 => .ok (candidate base number)
  | further + 1 => do
    if ← isTaken (candidate base number) then freeFrom isTaken base (number + 1) further
    else return candidate base number

/-- The first candidate that is free. More candidates than there are entries are never needed. -/
def freeName (base : Files.Path) (s : Session) : Except FileFault Files.Path :=
  freeFrom (fun p => s.files.isThere (s.locate p)) base 0 s.files.entries.length

/-- Copies the document under a name that was free, and gives the path of the copy; nothing is done
where the document is not there. -/
def backup (st : Store) : Action (Option Files.Path) := do
  if !(← Action.read st.isPresent) then return none
  Action.change fun s => s.files.makeDirectories (s.locate st.backupDirectory)
  let base ← Action.look fun s => st.backupBase s.moment
  let target ← Action.read (freeName base)
  Action.change fun s =>
    (s.files.copyFile (s.locate st.path) (s.locate target)).map Prod.fst
  Action.did (.kept target)
  Action.note ("Backed up " ++ st.path.text ++ " to " ++ target.text)
  return some target

/-- Puts the text of a backup in place of the document. -/
def restore (st : Store) (backup : Files.Path) : Action Unit := do
  st.write (← Action.read fun s => s.files.readText (s.locate backup))

/-- Copies those files that are there into a directory, and gives the paths of the copies. -/
def copyAll (directory : Files.Path) : List Files.Path → Action (List Files.Path)
  | [] => return []
  | source :: sources => do
    if ← Action.read fun s => s.files.isFile (s.locate source) then
      let target := directory.child source.name
      let inside ← Action.look fun s => s.files.leadsToDirectory (s.locate target)
      Action.change fun s =>
        (s.files.copyFile (s.locate source) (s.locate target)).map Prod.fst
      let rest ← copyAll directory sources
      return (if inside then target.child source.name else target) :: rest
    else copyAll directory sources

/-- Copies the document and the state files into a directory that is named for the moment, and gives
the directory and the paths of the copies. -/
def snapshot (st : Store) (root : Option Files.Path) : Action (Files.Path × List Files.Path) := do
  let stamp ← Action.look fun s => s.moment.stamp
  let target := (root.getD st.path.parent).child ("backup_" ++ stamp)
  Action.change fun s => s.files.makeDirectories (s.locate target)
  let copies ← copyAll target (st.path :: stateFiles.map st.path.parent.child)
  return (target, copies)

/-! ## The lock -/

/-- Opens the file of the lock; it and its directory are made where they are not there. -/
def openLock (st : Store) : Action Unit := do
  Action.change fun s => s.files.makeDirectories (s.locate st.lockPath.parent)
  Action.change fun s =>
    match s.files.at? (s.locate st.lockPath) with
    | some (.file ..) => .ok s.files
    | _ => s.files.writeBytes (s.locate st.lockPath) ByteArray.empty

/-- Takes the lock, whose file is open, and writes into the file who holds it. -/
def takeLock (st : Store) : Action Unit := do
  if (← get).isLockedElsewhere then
    Action.fail .lockTimeout (st.path.text ++ " is locked by another operation (lock file " ++
      st.lockPath.text ++ ")")
  Action.change fun s =>
    s.files.writeBytes (s.locate st.lockPath) (s.processId ++ "\n").toUTF8
  modify fun s => { s with holdsLock := true }

def acquire (st : Store) : Action Unit := do
  st.openLock
  st.takeLock

def release : Action Unit :=
  modify fun s => { s with holdsLock := false }

/-- An action under the lock of the document, which is given back at every end. -/
def withLock {α : Type} (st : Store) (act : Action α) : Action α := do
  st.acquire
  let r ← Action.observe act
  release
  Action.ofExcept r

end Store
end InstanceInventory
