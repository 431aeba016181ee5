import InstanceInventory.Cloud.Inventory
import InstanceInventory.Prompt.Basic
import InstanceInventory.Record.Summary
import InstanceInventory.Record.Validation
import InstanceInventory.Settings.Basic

/-! # Asking for a record

* `collectRecord`: everything about a new instance, with what the provider has to choose from.
* `showSummary`: what there is to say about a draft, as a table.
-/

namespace InstanceInventory.Prompt
set_option autoImplicit false
open Cloud (Client Row)

/-! ## Showing -/

/-- The text of a cell, empty where the row has no such field. -/
def cellText (row : Row) (heading : String) : String :=
  ((Pairs.get? row heading).map Value.display).getD ""

/-- Shows rows as a table, or says that there are none. -/
def showRows (title : String) (headings : List String) (rows : List Row) : Action Unit :=
  if rows.isEmpty then Action.warn ("No " ++ Text.lower title ++ " found")
  else Action.draw (.table title (some headings) (rows.map fun r => headings.map (cellText r)))

/-- Shows names as a list, or says that there are none. -/
def showNames (title : String) (names : List Value) : Action Unit := do
  if names.isEmpty then Action.warn ("No " ++ Text.lower title ++ " found")
  else
    Action.say (title ++ ":")
    Action.drawAll (names.map fun n => .bullet n.display)

def showSummary (d : Draft) (title : String) : Action Unit := do
  let rows ← (← Action.ofShape d.summary).mapM fun row => do
    return [row.1, ← Action.cellText row.2]
  Action.draw (.table title none rows)

/-! ## Parts of a record -/

def volumeTypes : List String := ["gp3", "gp2", "io1", "io2"]

def deviceLetters : List Char := ['f', 'g', 'h', 'i', 'j', 'k', 'l', 'm', 'n']

/-- The device that is offered for the further volume of a number, which counts from one. When the
letters run out the first is offered again. -/
def offeredDevice (number : Int) : String :=
  let letter := if 1 ≤ number then deviceLetters[(number - 1).toNat]? else none
  "/dev/sd" ++ String.ofList [letter.getD 'f']

def name : Action String :=
  required "Enter instance name" "Instance name cannot be empty"

/-- Asks for a text that must be given. -/
def value (question : String) : Action String :=
  required question "A value is required"

def size (question : String) (offered : Int) : Action Int :=
  untilDone (fun _ => do
    let n ← integer question offered
    if 0 < n then return .inr n
    else
      Action.complain "Size must be a positive number of GB"
      return .inl ()) ()

def securityGroups : Action (List String) := do
  Action.status "Enter Security Group IDs (sg-xxxxx), not names"
  untilDone (fun _ => do
    let ids := Text.words (← text "Security group IDs (space-separated)" (some ""))
    let invalid := ids.filter fun id => !Record.isSecurityGroupId id
    if invalid.isEmpty then return .inr ids
    else
      Action.displayAll (invalid.map fun id => .message .error
        ("Invalid security group format: " ++ id ++ " (use IDs like sg-08b61d2c25fc4fe3f)"))
      return .inl ()) ()

/-- The choices of an image: the presets and, last, an image of one's own. -/
def imageChoices (presets : List ImagePreset) : List Console.Item :=
  ((presets.map ImagePreset.label ++ ["Custom AMI ID"]).zipIdx 1).map fun e =>
    .line ("  " ++ countText e.2 ++ ". " ++ e.1)

/-- Asks for an image: the newest one of a preset, or one by its id. -/
def image (settings : Settings) (client : Client) : Action Value := do
  Action.say "AMI Options:"
  Action.drawAll (imageChoices settings.imagePresets)
  let last := settings.imagePresets.length + 1
  let number ← numberTo ("Choose AMI option (1-" ++ countText last ++ ")") last
  match settings.imagePresets[(number - 1).toNat]? with
  | none => return .text (← value "Enter custom AMI ID")
  | some preset =>
    Action.status ("Finding latest AMI for " ++ preset.label ++ "...")
    let found := ((← client.findLatestImage preset.pattern preset.owner).getD .null)
    if found.isTruthy then
      Action.status ("Found: " ++ found.display)
      return found
    else Action.fail .general ("Could not determine AMI ID for " ++ preset.label)

def rootVolume : Action RootVolume := do
  let n ← size "Root volume size in GB" 20
  let type ← choice "Root volume type" volumeTypes "gp3"
  let encrypted ← confirm "Encrypt root volume?" true
  return { sizeGib := n, volumeType := type, encrypted }

/-- Asks for the further volume of a number, which counts from one. -/
def extraVolume (number : Nat) : Action ExtraVolume := do
  let devicePath ← text "Device name" (some (offeredDevice number))
  let n ← size "Volume size in GB" 100
  let type ← choice "Volume type" volumeTypes "gp3"
  let encrypted ← confirm "Encrypt volume?" true
  let deleteOnTermination ← confirm "Delete on termination?" false
  return { devicePath, sizeGib := n, volumeType := type, encrypted, deleteOnTermination,
            label := "volume-" ++ countText number }

def extraVolumes : Action (List ExtraVolume) := do
  if ← confirm "Add additional EBS volumes?" false then
    untilDone (fun volumes => do
      let number := volumes.length + 1
      Action.say ("\n--- Additional Volume " ++ countText number ++ " ---")
      let v ← extraVolume number
      Action.status ("Volume " ++ countText number ++ " configured")
      if ← confirm "Add another volume?" false then return .inl (volumes ++ [v])
      else return .inr (volumes ++ [v])) []
  else return []

/-- Asks for tags, until an empty key is given. Standard tags are passed over. -/
def tags : Action Tags := do
  Action.status
    "Configure additional tags (Name, Terraform and Environment are added automatically)"
  untilDone (fun ts => do
    let key ← text "Tag key (Enter to finish)" (some "")
    if key.isEmpty then return .inr ts
    else if standardTagKeys.contains key then
      Action.warn ("Skipping '" ++ key ++ "' - this is a default tag")
      return .inl ts
    else
      let v ← text ("Tag value for '" ++ key ++ "'") (some "")
      return .inl (ts.set key v)) Tags.empty

/-! ## Records -/

/-- Asks for the network of an instance, up to its security groups. -/
def network (client : Client) : Action Network := do
  showRows "Available VPCs" ["VpcId", "Name", "CIDR"] (← client.listNetworks)
  let vpcId ← value "Enter VPC ID"
  showRows ("Subnets in " ++ vpcId) ["SubnetId", "Name", "CIDR", "AZ"] (← client.listSubnets vpcId)
  let subnetId ← value "Enter Subnet ID"
  showRows ("Security groups in " ++ vpcId) ["GroupId", "GroupName", "Description"]
    (← client.listSecurityGroups vpcId)
  let securityGroupIds ← securityGroups
  return { subnetId, vpcId, securityGroupIds }

def identity (client : Client) : Action Identity := do
  showNames "Available IAM instance profiles" (← client.listInstanceProfiles)
  let iamProfile ← optional "IAM instance profile name (Enter for none)"
  showNames "Available key pairs" (← client.listKeyPairs)
  let keyName ← optional "Key pair name (Enter for none)"
  return { iamProfile, keyName }

def protection : Action Protection := do
  let terminationProtected ← confirm "Enable termination protection?" false
  let stopProtected ← confirm "Enable stop protection?" false
  return { terminationProtected, stopProtected }

/-- Asks for everything about a new instance. Its image stays as the provider gave it. -/
def collectRecord (settings : Settings) (client : Client) (name : String) : Action Draft := do
  Action.displayAll (Console.Item.subheader "Instance Configuration")
  Action.say "Common instance types:"
  Action.drawAll (settings.instanceTypeHints.map fun h => .line ("  " ++ h))
  let instanceClass ← value "Enter instance type"
  let connected ← network client
  let chosen ← image settings client
  let actsAs ← identity client
  let privateIp ← optional "Private IP address (Enter for auto-assign)"
  let monitoringEnabled ← confirm "Enable detailed monitoring?" false
  Action.displayAll (Console.Item.subheader "Storage Configuration")
  let root ← rootVolume
  let extras ← extraVolumes
  let userDataPath ← optional "User data script path (Enter for none)"
  let guards ← protection
  let custom ← tags
  let r : InstanceRecord := {
    name
    image := chosen.display
    instanceClass
    network := { connected with privateIp }
    identity := actsAs
    monitoringEnabled
    rootVolume := root
    extraVolumes := extras
    userDataPath
    protection := guards
    tags := custom
    environment := settings.environment }
  return { r.draft with image := chosen }

end InstanceInventory.Prompt
