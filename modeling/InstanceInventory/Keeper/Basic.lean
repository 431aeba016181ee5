import InstanceInventory.Cloud.Inventory
import InstanceInventory.Document.Template
import InstanceInventory.Document.Verify
import InstanceInventory.Operation
import InstanceInventory.Prompt.Record
import InstanceInventory.Record.Attributes
import InstanceInventory.Settings.Basic
import InstanceInventory.Terraform.Runner

/-! # The keeper of the inventory

* `Keeper`: the settings, and what the operations work with.
* `Keeper.connect`: a keeper for settings.
* `Document.keysOf` and the like: the document as the operations look at it, with what there is to
  note.
* `Keeper.accepts`, `Keeper.backup`, `Keeper.writeDocument`, `Keeper.checkDocument`: the parts of an
  edit.
-/

namespace InstanceInventory
set_option autoImplicit false

def Settings.store (s : Settings) : Except Fault Store :=
  Store.of s.documentPath s.backupPath

/-- What the operations work with. The store is the one that the settings name. -/
structure Keeper where
  settings : Settings
  store : Store
  terraform : Terraform.Runner
  client : Cloud.Client
  agreed : settings.store = .ok store

/-! ## Looking at a document -/

namespace Document

def keysOf (text : String) : Action (List String) := do
  Action.notes (mapNotes text)
  Action.ofLiteral (keys text)

def blockOf (text key : String) : Action (Option String) := do
  Action.notes (mapNotes text)
  Action.ofLiteral (extract text key)

/-- The blocks that stay when a key is cut out. -/
def blocksWithout (text : String) (key : Option String) : Action (List String) := do
  Action.notes (mapNotes text)
  return (← Action.ofLiteral (splice text key)).remaining

/-- Whether a document has a map of instances. A map that is broken is reported. -/
def demandMap (text : String) : Action Bool := do
  Action.notes (requireMapNotes text)
  match ← Action.ofLiteral (requireMap text) with
  | .ok region => return region.isSome
  | .error e => Action.fail .unbalancedDocument e.message

/-- Demands that a document holds exactly the keys that it should. -/
def demandKeys (text : String) (expected : List String) : Action Unit := do
  Action.notes (checkNotes text expected)
  match ← Action.ofLiteral (flaw? text expected) with
  | none => pure ()
  | some flaw => Action.fail .documentInvariant flaw.message

end Document

namespace Record

/-- The record of a block, or why it cannot be read back. -/
def read (block : String) : Action (Except String InstanceRecord) := do
  match ← Action.ofLiteral (parse block) with
  | .ok (_, r) => return .ok r
  | .error e => return .error e.message

end Record

namespace Keeper

/-- How often requests are tried. -/
def retryPolicy (s : Settings) : Retry.Policy where
  attempts := s.maxAttempts
  baseDelay := .real s.retryBaseDelay

def connect (settings : Settings) : Action Keeper := do
  match agreed : settings.store with
  | .error f => throw f
  | .ok store =>
    let client ← Cloud.Client.connect settings.region settings.profile (retryPolicy settings)
    return {
      settings, store, client, agreed
      terraform := Terraform.Runner.of settings.workDirectory settings.terraformBinary }

def documentName (k : Keeper) : String :=
  k.store.path.name

/-! ## Parts of an edit -/

/-- The name of the record that a document holds under a key, where it can be read. -/
def existingName (text key : String) : Action (Option String) := do
  match ← Document.blockOf text key with
  | none => return none
  | some block =>
    match ← Record.read block with
    | .ok r => return some r.name
    | .error _ => return none

/-- Reports a key that a document holds already. -/
def refuseDuplicate {α : Type} (text key : String) : Action α := do
  Action.report (.duplicateRecord key (← existingName text key))

/-- Whether a document may be written anew. One that holds something and no map of instances is
asked about first, unless everything is agreed to. -/
def accepts (k : Keeper) (text : String) (assumeYes : Bool) : Action Bool := do
  if Text.isBlankText text then return true
  if ← Document.demandMap text then return true
  Action.warn (k.store.path.text ++
    " has no instance map; writing will replace its content (a backup is taken first)")
  if assumeYes then return true else Prompt.confirm "Continue anyway?" false

/-- What a document says besides its records. -/
def documentOptions (s : Settings) : Document.Options where
  region := s.region
  providerVersion := s.providerVersion
  preventDestroy := s.preventDestroy

/-- Writes the document that holds given blocks, after a check that its keys are those expected. -/
def writeDocument (k : Keeper) (blocks expected : List String) : Action Unit := do
  let text := Document.render (documentOptions k.settings) blocks
  Document.demandKeys text expected
  k.store.write text

def backup (k : Keeper) : Action (Option Files.Path) := do
  let copy ← k.store.backup
  match copy with
  | none => pure ()
  | some p =>
    Action.success ("Backed up existing " ++ k.documentName ++ " to " ++ p.name)
    Action.step "backup" true p.text
  return copy

/-- Where Terraform keeps what it needs, below its directory. -/
def initializedMark : String := ".terraform"

def ensureInitialized (k : Keeper) : Action Unit := do
  let mark := k.terraform.directory.child initializedMark
  if !(← Action.read fun s => s.files.isDirectory (s.locate mark)) then
    Action.status "Initializing Terraform..."
    let _ ← k.terraform.run (.init false)

/-- Why Terraform failed: what it printed, or else the wording of the report. -/
def stderrOr (report : Report) (stderr : String) : String :=
  if Text.isBlankText stderr then report.message else Text.trim stderr

/-- An action, and what is done instead once a command of Terraform fails, which is told with what
it printed. -/
def onTerraformFailure {α : Type} (act : Action α) (handle : Report → String → Action α) :
    Action α :=
  Action.recover act fun r =>
    match r with
    | .terraform _ _ stderr => handle r stderr
    | r => Action.report r

def checkDocument (k : Keeper) : Action Unit := do
  k.ensureInitialized
  let _ ← k.terraform.run .validate

/-- Shows keys as a list, or says `empty` if there are none. -/
def showKeys (keys : List String) (empty : String) : Action Unit :=
  Action.drawAll (if keys.isEmpty then [.line ("  " ++ empty)] else keys.map .bullet)

end Keeper
end InstanceInventory
