import InstanceInventory.Record.Draft
import InstanceInventory.Value.Table

/-! # Drafts of running instances

* `tagTable`: the tags of a described instance or volume.
* `rootMapping?`: the device mapping that an instance starts from.
* `ofSnapshot`: the draft of an instance as the provider describes it, with its volumes.
-/

namespace InstanceInventory.Record
set_option autoImplicit false
open Value (Table)

def unnamed : String := "unnamed"

/-- The devices that an instance starts from where it names none that is mapped. -/
def rootDeviceFallbacks : List String := ["/dev/xvda", "/dev/sda1"]

/-! ## Tags -/

/-- The tags of descriptions, on top of a table; a key has the value that was given last. -/
def addTags (table : Table) : List Value → Except ShapeFault Table
  | [] => .ok table
  | tag :: tags => do
    let key ← tag.field "Key"
    let value ← tag.fieldOr "Value" (.text "")
    addTags (← table.set key value) tags

def tagTable (described : Value) : Except ShapeFault Table := do
  if described.isTruthy then addTags [] (← described.items) else return []

/-- Whether a tag may be managed; keys that begin with `aws:` are reserved. -/
def isImportable (key : String) : Bool :=
  !("aws:".toList.isPrefixOf key.toList)

def importableTags (table : Table) : Except ShapeFault Fields :=
  table.textEntries.map fun tags => tags.filter fun e => isImportable e.1

/-- The value of a tag where it counts as present, or else another value. -/
def tagOr (table : Table) (key : String) (other : Value) : Value :=
  ((table.textEntry? key).getD .null).orElse other

/-! ## Device mappings -/

/-- A device mapping, and its place among all mappings. -/
abbrev Mapping := Value × Nat

/-- The device mappings with volumes behind them, in order. -/
def volumeMappings : List Mapping → Except ShapeFault (List Mapping)
  | [] => .ok []
  | m :: ms => do
    let held ← m.1.holds "Ebs"
    let others ← volumeMappings ms
    return if held then m :: others else others

/-- The first mapping whose device satisfies a predicate. -/
def findDevice (p : Value → Bool) : List Mapping → Except ShapeFault (Option Mapping)
  | [] => .ok none
  | m :: ms => do
    if p (← m.1.fieldOr "DeviceName" .null) then return some m else findDevice p ms

/-- The mapping that an instance starts from: the first of the device that it names, else the first
of a usual root device. -/
def rootMapping? (rootDevice : Value) (ms : List Mapping) :
    Except ShapeFault (Option Mapping) := do
  match ← findDevice (·.same rootDevice) ms with
  | some m => return some m
  | none => findDevice (fun d => rootDeviceFallbacks.any d.isText) ms

def volumeBehind (volumes : Table) (mapping : Value) : Except ShapeFault Value := do
  let id ← (← mapping.field "Ebs").fieldOr "VolumeId" (.text "")
  return (← volumes.get? id).getD .null

/-! ## Volumes -/

/-- What a description says of the root volume, in a draft. -/
def describeRoot (info : Value) (d : Draft) : Except ShapeFault Draft := do
  return { d with
    rootSizeGib := ← info.fieldOr "Size" (.ofInt 20)
    rootVolumeType := ← info.fieldOr "VolumeType" (.text "gp3")
    rootEncrypted := .bool (← info.fieldOr "Encrypted" (.bool false)).isTruthy
    rootTags := ← importableTags (← tagTable (← info.fieldOr "Tags" .null)) }

def withRoot (volumes : Table) (root : Option Mapping) (d : Draft) : Except ShapeFault Draft := do
  let plain := { d with rootEncrypted := .bool false }
  match root with
  | none => return plain
  | some m =>
    match ← volumeBehind volumes m.1 with
    | .null => return plain
    | info => describeRoot info d

/-- The label of a further volume: what follows the name of the instance and a dash in the name of
the volume, or else its number. -/
def volumeLabel (name volumeName : Value) (number : Nat) : Except ShapeFault String := do
  let text ← volumeName.asText
  if (name.display ++ "-").toList.isPrefixOf text.toList then
    let skipped := (← name.length) + 1
    if skipped < text.length then return String.ofList (text.toList.drop skipped)
  return "volume-" ++ countText number

/-- The further volume behind a mapping; `number` counts the further volumes from one. -/
def describeExtra (name : Value) (volumes : Table) (number : Nat) (mapping : Value) :
    Except ShapeFault DraftVolume := do
  let info := (← volumeBehind volumes mapping).orElse .emptyObject
  let tags ← tagTable (← info.fieldOr "Tags" .null)
  let label ← volumeLabel name ((tags.textEntry? "Name").getD (.text "")) number
  let devicePath ← mapping.field "DeviceName"
  let ebs ← mapping.field "Ebs"
  return {
    devicePath
    sizeGib := ← info.fieldOr "Size" (.ofInt 100)
    volumeType := ← info.fieldOr "VolumeType" (.text "gp3")
    encrypted := .bool (← info.fieldOr "Encrypted" (.bool false)).isTruthy
    deleteOnTermination := .bool (← ebs.fieldOr "DeleteOnTermination" (.bool false)).isTruthy
    label := .text label }

/-- The further volumes behind mappings, counted from `number`; the mapping at the place of the root
is passed over. -/
def describeExtras (name : Value) (volumes : Table) (root : Option Nat) (number : Nat) :
    List Mapping → Except ShapeFault (List DraftVolume)
  | [] => .ok []
  | m :: ms => do
    let wanted ← if root = some m.2 then pure false else m.1.holds "Ebs"
    if wanted then
      let volume ← describeExtra name volumes number m.1
      return volume :: (← describeExtras name volumes root (number + 1) ms)
    else describeExtras name volumes root number ms

/-! ## Other parts -/

def lastPart (path : String) : String :=
  String.ofList ((path.toList.reverse.takeWhile (· != '/')).reverse)

/-- The name of the profile with a resource name, or null where there is none. -/
def profileName (arn : Value) : Except ShapeFault Value := do
  if arn.isTruthy then return .text (lastPart (← arn.asText)) else return .null

/-- A field that may be missing or null, as an object. -/
def partOf (v : Value) (name : String) : Except ShapeFault Value := do
  return (← v.fieldOr name .null).orElse .emptyObject

/-- Whether a field is a certain text; it counts as `other` where it is missing. -/
def fieldIs (v : Value) (name word other : String) : Except ShapeFault Value := do
  return .bool ((← v.fieldOr name (.text other)).isText word)

/-! ## Drafts -/

def ofSnapshot (described : Value) (volumes : Table) (protection : Protection)
    (environment : Value) : Except ShapeFault Draft := do
  let tags ← tagTable (← described.fieldOr "Tags" .null)
  let name := tagOr tags "Name" (.text unnamed)
  let mappings := (← described.fieldItems "BlockDeviceMappings").zipIdx
  let candidates ← volumeMappings mappings
  let root ← rootMapping? (← described.fieldOr "RootDeviceName" .null) candidates
  let blank : Draft := {
    name, image := .null, instanceClass := .null, subnetId := .null, vpcId := .null }
  let rooted ← withRoot volumes root blank
  let extraVolumes ← describeExtras name volumes (root.map Prod.snd) 1 mappings
  let arn ← (← partOf described "IamInstanceProfile").fieldOr "Arn" .null
  let options ← partOf described "MetadataOptions"
  return { rooted with
    image := ← described.fieldOr "ImageId" (.text "")
    instanceClass := ← described.fieldOr "InstanceType" (.text "")
    subnetId := ← described.fieldOr "SubnetId" (.text "")
    vpcId := ← described.fieldOr "VpcId" (.text "")
    privateIp := ← described.fieldOr "PrivateIpAddress" .null
    securityGroupIds := ← (← described.fieldItems "SecurityGroups").mapM (·.field "GroupId")
    iamProfile := ← profileName arn
    keyName := ← described.fieldOr "KeyName" .null
    monitoringEnabled := ← fieldIs (← partOf described "Monitoring") "State" "enabled" ""
    extraVolumes
    httpEndpointEnabled := ← fieldIs options "HttpEndpoint" "enabled" "enabled"
    tokensRequired := ← fieldIs options "HttpTokens" "required" "optional"
    hopLimit := ← options.fieldOr "HttpPutResponseHopLimit" (.ofInt 1)
    tagsExposed := ← fieldIs options "InstanceMetadataTags" "enabled" "disabled"
    terminationProtected := .bool protection.terminationProtected
    stopProtected := .bool protection.stopProtected
    tags := (← importableTags tags).filter fun e => !standardTagKeys.contains e.1
    environment := tagOr tags "Environment" environment }

end InstanceInventory.Record
