import InstanceInventory.Keeper.Basic
import InstanceInventory.Record.Snapshot

/-! # Importing an instance

* `Keeper.importing`: brings a running instance under management: its record goes into the document,
  which Terraform checks, and the instance into Terraform's state.
* `Keeper.fetch`: the draft of the instance, as the provider describes it.
* `Keeper.place`: puts the draft into the document and the instance into Terraform's state.
* `Keeper.importInstance`: imports an instance, where nobody else is at work.
-/

namespace InstanceInventory.Keeper
set_option autoImplicit false

def fetchDraft (k : Keeper) (id : String) : Action Draft := do
  let described ← k.client.describeInstance id
  let volumes ← k.client.collectVolumes described
  let protection ← k.client.instanceProtection id
  let environment := Value.text k.settings.environment
  let d ← Action.ofShape (Record.ofSnapshot described volumes protection environment)
  Action.ofExcept d.validate
  return d

/-- Shows the record that will be replaced, or its block if it cannot be read back. -/
def showReplaced (text key : String) : Action Unit := do
  match ← Document.blockOf text key with
  | none => pure ()
  | some block =>
    match ← Record.read block with
    | .ok r => Prompt.showSummary r.draft ("Existing record '" ++ key ++ "'")
    | .error _ =>
      Action.warn ("Existing record '" ++ key ++ "' could not be read back; it will be replaced")
      Action.say block

/-- Whether the record of a key may be put into a document. -/
def acceptsImport (k : Keeper) (text key : String) (keys : List String) (assumeYes : Bool) :
    Action Bool := do
  if keys.contains key then
    showReplaced text key
    if !assumeYes then
      if !(← Prompt.confirm ("Instance '" ++ key ++ "' already exists. Overwrite?") false) then
        return false
  k.accepts text assumeYes

/-- Has Terraform check the document that was just written. If it fails the document stays, and the
report names its backup. -/
def checkImport (k : Keeper) (backup : Option Files.Path) : Action Unit := do
  onTerraformFailure k.checkDocument fun report stderr => do
    Action.step "validation" false (Text.trim stderr)
    Action.report (.postWrite ("Validation failed: " ++ stderrOr report stderr ++
      match backup with
      | some p => " (previous configuration kept in " ++ p.text ++ ")"
      | none => "") (backup.map Files.Path.text) false)
  Action.step "validation" true "terraform validate passed"

/-- Takes an address out of Terraform's state where it is tracked already. -/
def clearState (k : Keeper) (address : String) : Action Unit := do
  Action.status "Step 4: Checking whether the instance is already tracked..."
  if ← k.terraform.isTracked address then
    Action.warn
      "Instance already managed by Terraform. Removing from state for re-import..."
    let _ ← k.terraform.run (.stateRemove address)
    Action.step "state_cleanup" true ("Removed " ++ address ++ " from state")

/-- Brings an instance into Terraform's state under an address, out of which it is taken first where
it is tracked already. -/
def importState (k : Keeper) (address id : String) : Action Unit := do
  k.clearState address
  Action.status "Step 5: Importing instance..."
  let _ ← k.terraform.run (.importResource address id)
  Action.step "import" true (address ++ " <- " ++ id)
  Action.success "Import successful"

/-- Puts the draft of an instance into a document that holds certain keys, in place of what it holds
under the key, and the instance into Terraform's state. -/
def putIn (k : Keeper) (text : String) (d : Draft) (key id : String) (keys : List String) :
    Process Unit := do
  Action.status "Step 2: Adding instance to configuration..."
  let backup ← k.backup
  let blocks ← Document.blocksWithout text (some key)
  let block ← Action.ofShape (d.block Record.blockLevel)
  k.writeDocument (blocks ++ [block]) (keys.filter (· != key) ++ [key])
  Action.success ("Added instance '" ++ key ++ "' to " ++ k.documentName)
  Action.step "configuration" true key
  Action.status "Step 3: Validating configuration..."
  k.checkImport backup
  k.importState (Record.addressOf key) id
  Action.status "Step 6: Final verification..."
  Action.say (← k.terraform.run .plan)
  Action.step "plan" true "terraform plan completed"

/-- Puts the draft of an instance into the document and the instance into Terraform's state; `false`
if the operator gives up. -/
def place (k : Keeper) (d : Draft) (key id : String) (assumeYes : Bool) : Process Bool := do
  let text ← k.store.readText
  let keys ← Document.keysOf text
  if !(← k.acceptsImport text key keys assumeYes) then
    Action.cancel "Import cancelled."
    return false
  else
    k.putIn text d key id keys
    return true

/-- Asks the provider for a running instance, which is checked, and gives its draft and its key. -/
def fetch (k : Keeper) (id : String) : Action (Draft × String) := do
  Action.begin
  if id.isEmpty then
    Action.fail .usage "An instance id is required (e.g. i-0b7fc7c40f824a8b9)"
  Action.displayAll (Console.Item.header "EC2 INSTANCE IMPORTER")
  Action.status ("Importing instance: " ++ id)
  Action.status "Step 1: Fetching instance details..."
  let d ← k.fetchDraft id
  let key ← Action.ofShape d.key
  Action.step "instance_details" true (d.name.display ++ " (" ++ d.instanceClass.display ++ ")")
  Prompt.showSummary d "Instance Details"
  return (d, key)

def reportImport (d : Draft) (key id : String) : Action Unit :=
  Action.success ("Instance " ++ d.name.display ++ " (" ++ id ++
    ") is now managed by Terraform as '" ++ key ++ "'")

/-- Brings a running instance under management. -/
def importing (k : Keeper) (id : String) (assumeYes : Bool) : Operation where
  store := k.store
  Plan := Draft × String
  Outcome := Bool
  before := some <$> (k.fetch id : Process (Draft × String))
  under p := k.place p.1 p.2 id assumeYes
  after p isPlaced := if isPlaced then reportImport p.1 p.2 id else pure ()

/-- Imports an instance, where nobody else is at work. -/
def importInstance (k : Keeper) (id : String) (assumeYes : Bool) : Action Unit :=
  (k.importing id assumeYes).alone

end InstanceInventory.Keeper
