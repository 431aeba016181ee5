import InstanceInventory.Keeper.Basic

/-! # Looking at the inventory

* `Keeper.listInstances`: the instances that Terraform tracks, that the document holds and that are
  running; nothing is changed.
* `Keeper.validate`: whether the document, Terraform and the credentials are in order.
* `Keeper.plan`, `Keeper.apply`: what Terraform would do, and has it done.
* `Keeper.backupState`: copies of the document and the state.
-/

namespace InstanceInventory.Keeper
set_option autoImplicit false

/-- What there is: addresses in Terraform's state, keys in the document with the records that can be
read back, and rows of the provider. -/
structure Inventory where
  tracked : List String
  configured : List (String × Option InstanceRecord)
  live : List Cloud.Row

/-! ## Listing -/

/-- The addresses of instances that Terraform tracks; none where its state cannot be read. -/
def listTracked (k : Keeper) : Action (List String) :=
  onTerraformFailure
    (do
      let addresses := (← k.terraform.stateList).filter fun a =>
        Text.beginsWith a (Record.resourceType ++ ".")
      Action.step "state" true (countText addresses.length ++ " tracked")
      return addresses)
    (fun report _ => do
      Action.warn ("Could not read Terraform state: " ++ report.message)
      Action.step "state" false report.message
      return [])

/-- The records of keys, where they can be read back. -/
def readRecords (text : String) : List String → Action (List (String × Option InstanceRecord))
  | [] => return []
  | key :: keys => do
    let record ← match ← Document.blockOf text key with
      | none => pure none
      | some block =>
        match ← Record.read block with
        | .ok r => pure (some r)
        | .error message => do
          Action.warn message
          pure none
    return (key, record) :: (← readRecords text keys)

/-- The keys that the document holds, with their records. -/
def listConfigured (k : Keeper) : Action (List (String × Option InstanceRecord)) := do
  let text ← k.store.readText
  let records ← readRecords text (← Document.keysOf text)
  Action.step "configuration" true (countText records.length ++ " configured")
  return records

/-- The instances that the provider runs; none where it cannot be asked. -/
def listLive (k : Keeper) : Action (List Cloud.Row) :=
  Action.recover
    (do
      let rows ← k.client.listInstances
      Action.step "aws" true (countText rows.length ++ " instances in " ++ k.settings.region)
      return rows)
    (fun report => do
      Action.warn ("Could not list AWS instances: " ++ report.message)
      Action.step "aws" false report.message
      return [])

/-- The instances that are tracked, configured and running. -/
def listInstances (k : Keeper) : Action Inventory := do
  Action.begin
  let tracked ← k.listTracked
  let configured ← k.listConfigured
  let live ← k.listLive
  return { tracked, configured, live }

/-! ## Validation -/

def documentTrouble? (k : Keeper) : Action (Option Report) := do
  if ← Action.read k.store.isPresent then
    let keys ← Document.keysOf (← k.store.readText)
    Action.step "configuration" true
      (countText keys.length ++ " instance(s) in " ++ k.documentName)
    onTerraformFailure
      (do
        k.checkDocument
        Action.step "terraform" true "terraform validate passed"
        return none)
      (fun report stderr => do
        Action.step "terraform" false (stderrOr report stderr)
        return some report)
  else
    let message := "No " ++ k.documentName ++ " found in " ++ k.store.path.parent.text
    Action.step "configuration" false message
    return some (.plain .general message)

def cellOf (row : Cloud.Row) (heading : String) : String :=
  ((Pairs.get? row heading).map Value.display).getD ""

def credentialTrouble? (k : Keeper) : Action (Option Report) :=
  Action.recover
    (do
      let identity ← k.client.callerIdentity
      Action.step "aws_credentials" true
        ("Account " ++ cellOf identity "account" ++ " (" ++ cellOf identity "arn" ++ ")")
      return none)
    (fun report => do
      Action.step "aws_credentials" false report.message
      return some report)

/-- Checks the document, has Terraform check it, and checks the credentials. Everything is checked
before the first trouble is reported. -/
def validate (k : Keeper) : Action Unit := do
  Action.begin
  let document ← k.documentTrouble?
  let credentials ← k.credentialTrouble?
  match document.or credentials with
  | some report => Action.report report
  | none => pure ()

/-! ## Terraform -/

def plan (k : Keeper) : Action Unit := do
  Action.begin
  k.ensureInitialized
  Action.say (← k.terraform.run .plan)
  Action.step "plan" true "terraform plan completed"

/-- Has Terraform do what it would do, if the operator agrees. -/
def apply (k : Keeper) (assumeYes : Bool) : Action Unit := do
  Action.begin
  let agreed ← if assumeYes then pure true else Prompt.confirm "Apply the changes to AWS?" false
  if agreed then
    k.ensureInitialized
    Action.say (← k.terraform.run (.apply true))
    Action.step "apply" true "terraform apply completed"
  else Action.cancel "Cancelled."

/-! ## Backups -/

/-- Copies the document and the state files into a directory that is named for the moment. -/
def backupState (k : Keeper) : Action Unit := do
  Action.begin
  let (target, copies) ← k.store.snapshot (some k.settings.backupPath)
  if copies.isEmpty then Action.warn "Nothing to back up"
  Action.displayAll (copies.map fun p => .message .success ("Backed up " ++ p.name))
  Action.step "backup" true (countText copies.length ++ " file(s) in " ++ target.text)

end InstanceInventory.Keeper
