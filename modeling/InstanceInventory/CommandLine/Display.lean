import InstanceInventory.Keeper.Inspect

/-! # Showing results

* `displayResults`: how the steps of an operation went, as a table.
* `displayInventory`: what there is, as tables.
* `displayReport`: a report with whatever detail it carries.
-/

namespace InstanceInventory.CommandLine
set_option autoImplicit false
open Console (Item)

/-! ## Steps -/

/-- The words of a name of lower-case letters and underscores, each with a capital. -/
def titled (name : String) : String :=
  let words := (name.toList.map fun c => if c = '_' then ' ' else c)
  String.ofList ((words.zip (' ' :: words)).map fun e => if e.2 = ' ' then e.1.toUpper else e.1)

def stepRow (step : String × Step) : List String :=
  [titled step.1, if step.2.succeeded then "✅ Success" else "❌ Failed", step.2.details]

/-- Shows how the steps of the last operation went; nothing if there were none. -/
def displayResults (title : String) : Action Unit := do
  let steps ← Action.look fun s => s.progress.steps
  if !steps.isEmpty then
    Action.say "\n"
    Action.draw (.table title (some ["Step", "Status", "Details"]) (steps.map stepRow))

/-! ## The inventory -/

def configuredRow (entry : String × Option InstanceRecord) : List String :=
  match entry.2 with
  | none => [entry.1, "(unparsed)", "", ""]
  | some r => [entry.1, r.name, r.instanceClass, r.network.subnetId]

def liveHeadings : List String :=
  ["InstanceId", "Name", "InstanceType", "State", "PrivateIpAddress"]

def liveRow (row : Cloud.Row) : Action (List String) :=
  liveHeadings.mapM fun h => Action.cellText ((Pairs.get? row h).getD .null)

def trackedTable (i : Keeper.Inventory) : Item :=
  .table "Instances in Terraform state" (some ["Address"]) (i.tracked.map fun a => [a])

def configuredTable (i : Keeper.Inventory) : Item :=
  .table "Instances in configuration" (some ["Resource", "Name", "Type", "Subnet"])
    (i.configured.map configuredRow)

def displayInventory (i : Keeper.Inventory) : Action Unit := do
  Action.drawAll [trackedTable i, configuredTable i]
  Action.draw (.table "Instances in AWS" (some liveHeadings) (← i.live.mapM liveRow))

/-! ## Reports -/

/-- Shows what there is to a report besides its wording. -/
def displayDetail : Report → Action Unit
  | .recordNotFound _ available =>
    if available.isEmpty then pure ()
    else Action.drawAll (.line "\nAvailable instances:" :: available.map .bullet)
  | .invalidRecord problems => Action.drawAll (problems.map .bullet)
  | .postWrite _ (some backup) restored =>
    if restored then Action.status ("Restored configuration from " ++ backup)
    else Action.warn ("Previous configuration is in " ++ backup)
  | _ => pure ()

def displayReport (r : Report) : Action Unit := do
  Action.complain (r.name ++ ": " ++ r.message)
  displayDetail r

end InstanceInventory.CommandLine
