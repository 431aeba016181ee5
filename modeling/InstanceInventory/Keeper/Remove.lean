import InstanceInventory.Keeper.Basic

/-! # Removing an instance

* `Keeper.removal`: takes a record out of the document, and the instance out of Terraform's state
  where that is wanted.
* `Keeper.cutOut`: cuts a key out of a document that holds it. If Terraform refuses the document its
  backup is put back.
* `Keeper.remove`: removes a record, where nobody else is at work.
-/

namespace InstanceInventory.Keeper
set_option autoImplicit false

/-- Has Terraform check the document without a key. If it fails the backup is put back. -/
def checkRemoval (k : Keeper) (key : String) (backup : Option Files.Path) : Action Unit := do
  onTerraformFailure k.checkDocument fun report stderr => do
    Action.complain "Configuration validation failed, restoring backup..."
    match backup with
    | some p => k.store.restore p
    | none => pure ()
    Action.step "validation" false (Text.trim stderr)
    Action.report (.postWrite
      ("Validation failed after removing '" ++ key ++ "': " ++ stderrOr report stderr)
      (backup.map Files.Path.text) backup.isSome)
  Action.step "validation" true "terraform validate passed"

/-- Takes the instance of a key out of Terraform's state, where it is tracked. -/
def forgetState (k : Keeper) (key : String) : Action Unit := do
  let address := Record.addressOf key
  if ← k.terraform.isTracked address then
    let _ ← k.terraform.run (.stateRemove address)
    Action.success ("Removed " ++ address ++ " from Terraform state; the instance keeps running")
    Action.step "state" true ("Forgot " ++ address)
  else
    Action.status (address ++ " is not tracked in Terraform state")
    Action.step "state" true (address ++ " was not tracked")

/-- Cuts a key out of a document that holds it, so that the keys `rest` are left, and has Terraform
check what is left. -/
def cutOut (k : Keeper) (text key : String) (rest : List String) (forget : Bool) :
    Process Unit := do
  let backup ← k.backup
  Action.status ("Removing '" ++ key ++ "' from " ++ k.documentName ++ "...")
  let blocks ← Document.blocksWithout text (some key)
  k.writeDocument blocks rest
  Action.success ("Removed '" ++ key ++ "' from " ++ k.documentName)
  Action.step "configuration" true ("Removed " ++ key)
  Action.status "Validating updated configuration..."
  k.checkRemoval key backup
  if forget then k.forgetState key

/-- Takes the record of a key out of the document, and gives the keys that are left. -/
def takeOut (k : Keeper) (key : String) (forget : Bool) : Process (List String) := do
  if !(← Action.read k.store.isPresent) then
    Action.complain ("No " ++ k.documentName ++ " found")
    Action.report (.recordNotFound key [])
  else
    let text ← k.store.readText
    let _ ← Document.demandMap text
    let keys ← Document.keysOf text
    if !keys.contains key then
      Action.report (.recordNotFound key keys)
    else
      let rest := keys.filter (· != key)
      k.cutOut text key rest forget
      return rest

/-- Tells which record is going to be removed. -/
def introduceRemoval (key : String) : Action Unit := do
  Action.begin
  if key.isEmpty then
    Action.fail .usage "A resource name is required"
  Action.displayAll (Console.Item.header "REMOVE INSTANCE FROM CONFIGURATION")
  Action.status ("Target: " ++ key)

/-- What is said once a record was taken out. -/
def removalNotes (k : Keeper) : List String :=
  ["\nNext steps:", "1. Review the updated " ++ k.documentName,
    "2. Run: terraform plan (should show 1 to destroy)",
    "3. Run: terraform apply (will destroy the instance)"]

def reportRemoval (k : Keeper) (forget : Bool) (rest : List String) : Action Unit := do
  Action.say "\nRemaining instances in configuration:"
  showKeys rest "None"
  if !forget then
    Action.drawAll (k.removalNotes.map .line)
    Action.warn "The AWS instance keeps running until the changes are applied"

/-- Takes the record of a key out of the document. -/
def removal (k : Keeper) (key : String) (forget : Bool) : Operation where
  store := k.store
  Plan := Unit
  Outcome := List String
  before := some <$> (introduceRemoval key : Process Unit)
  under _ := k.takeOut key forget
  after _ rest := k.reportRemoval forget rest

/-- Removes a record, where nobody else is at work. -/
def remove (k : Keeper) (key : String) (forget : Bool) : Action Unit :=
  (k.removal key forget).alone

end InstanceInventory.Keeper
