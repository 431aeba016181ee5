import InstanceInventory.Literal.Parser
import InstanceInventory.Literal.Printer
import InstanceInventory.Record.Draft

/-! # Records in the document

* `Draft.attributes`: what a draft says in the document, in the order in which it is written.
* `Draft.block`: the block of a draft.
* `ofAttributes`: the record that attributes describe. What is left out takes the value that the
  provider would use, which is not always the one of a new record.
* `parse`: the key and the record that a block describes.
-/

namespace InstanceInventory
set_option autoImplicit false

/-! ## Writing -/

namespace Record

def enabledText (on : Bool) : String :=
  if on then "enabled" else "disabled"

def requiredText (required : Bool) : String :=
  if required then "required" else "optional"

def blockLevel : Int := 2

end Record

open Record (enabledText requiredText)

def DraftVolume.attributes (v : DraftVolume) : Value :=
  .object [("device_name", v.devicePath),
    ("volume_size", v.sizeGib),
    ("volume_type", v.volumeType),
    ("encrypted", v.encrypted),
    ("delete_on_termination", v.deleteOnTermination),
    ("name", v.label)]

def Draft.attributes (d : Draft) : Fields :=
  [("ami", d.image),
    ("instance_type", d.instanceClass),
    ("subnet_id", d.subnetId),
    ("vpc_id", d.vpcId),
    ("security_group_ids", .list d.securityGroupIds),
    ("iam_instance_profile", d.iamProfile),
    ("key_name", d.keyName),
    ("private_ip", d.privateIp),
    ("monitoring", d.monitoringEnabled),
    ("root_volume_size", d.rootSizeGib),
    ("root_volume_type", d.rootVolumeType),
    ("root_volume_encrypted", d.rootEncrypted),
    ("root_volume_tags", .object d.rootTags),
    ("ebs_volumes", .list (d.extraVolumes.map DraftVolume.attributes)),
    ("user_data_path", d.userDataPath),
    ("http_endpoint", .text (enabledText d.httpEndpointEnabled.isTruthy)),
    ("http_tokens", .text (requiredText d.tokensRequired.isTruthy)),
    ("http_hop_limit", d.hopLimit),
    ("metadata_tags", .text (enabledText d.tagsExposed.isTruthy)),
    ("termination_protection", d.terminationProtected),
    ("stop_protection", d.stopProtected),
    ("tags", .object d.allTags)]

def Draft.block (d : Draft) (level : Int) : Except ShapeFault String :=
  d.key.map fun key => Literal.renderEntry level key (.object d.attributes)

def InstanceRecord.block (r : InstanceRecord) (level : Int) : String :=
  Literal.renderEntry level r.key (.object r.draft.attributes)

namespace Record

/-! ## Reading attributes -/

/-- Why attributes describe no record. -/
inductive ReadError where
  | missing (name : String)
  | notNumber (name : String)
  | unexpectedValue (name : String) (value : Value)
  | notTextMap (name : String)
  | noName
  | volumeNotObject
  | groupsNotTexts
  deriving Repr

def ReadError.message : ReadError → String
  | .missing name => "attribute '" ++ name ++ "' is missing"
  | .notNumber name => "attribute '" ++ name ++ "' must be a number"
  | .unexpectedValue name value =>
    "attribute '" ++ name ++ "' has unexpected value " ++ value.shown
  | .notTextMap name => "attribute '" ++ name ++ "' must map strings to strings"
  | .noName => "tags do not include Name"
  | .volumeNotObject => "ebs_volumes entries must be objects"
  | .groupsNotTexts => "security_group_ids must be a list of strings"

/-- The attribute with a name, which must be there. -/
def demandField (fields : Fields) (name : String) : Except ReadError Value :=
  match Pairs.get? fields name with
  | some v => .ok v
  | none => .error (.missing name)

def asText (name : String) : Value → Except ReadError String
  | .text s => .ok s
  | v => .error (.unexpectedValue name v)

/-- A text, or nothing where the value is null. -/
def asText? (name : String) : Value → Except ReadError (Option String)
  | .null => .ok none
  | v => (asText name v).map some

def asFlag (name : String) : Value → Except ReadError Bool
  | .bool b => .ok b
  | v => .error (.unexpectedValue name v)

def asInteger (name : String) : Value → Except ReadError Int
  | .number (.int n) => .ok n
  | .bool _ => .error (.notNumber name)
  | v => .error (.unexpectedValue name v)

def asList (name : String) : Value → Except ReadError (List Value)
  | .list vs => .ok vs
  | v => .error (.unexpectedValue name v)

def asObject (name : String) : Value → Except ReadError Fields
  | .object fields => .ok fields
  | v => .error (.unexpectedValue name v)

/-- An attribute that must be there, as `read` takes it. -/
def take {α : Type} (read : String → Value → Except ReadError α) (fields : Fields)
    (name : String) : Except ReadError α :=
  (demandField fields name).bind (read name)

/-- An attribute as `read` takes it, or another value where it is not there. -/
def takeOr {α : Type} (read : String → Value → Except ReadError α) (fields : Fields)
    (name : String) (other : α) : Except ReadError α :=
  match Pairs.get? fields name with
  | some v => read name v
  | none => .ok other

def allTexts? : List Value → Option (List String)
  | [] => some []
  | .text s :: vs => (allTexts? vs).map (s :: ·)
  | _ => none

def allTextFields? : Fields → Option (List (String × String))
  | [] => some []
  | (k, .text s) :: fs => (allTextFields? fs).map ((k, s) :: ·)
  | _ => none

def asTags (name : String) (v : Value) : Except ReadError Tags := do
  match allTextFields? (← asObject name v) with
  | some pairs => return .ofPairs pairs
  | none => throw (.notTextMap name)

/-- A further volume; `index` counts the volumes from one. -/
def asVolume (index : Nat) : Value → Except ReadError ExtraVolume
  | .object fields => do
    return {
      devicePath := ← take asText fields "device_name"
      sizeGib := ← take asInteger fields "volume_size"
      volumeType := ← takeOr asText fields "volume_type" "gp3"
      encrypted := ← takeOr asFlag fields "encrypted" true
      deleteOnTermination := ← takeOr asFlag fields "delete_on_termination" false
      label := ← takeOr asText fields "name" ("volume-" ++ countText index) }
  | _ => .error .volumeNotObject

/-- Further volumes, counted from `index`. -/
def asVolumes (index : Nat) : List Value → Except ReadError (List ExtraVolume)
  | [] => .ok []
  | v :: vs => do
    let volume ← asVolume index v
    return volume :: (← asVolumes (index + 1) vs)

def rootVolumeOf (fields : Fields) : Except ReadError RootVolume := do
  return {
    sizeGib := ← takeOr asInteger fields "root_volume_size" 20
    volumeType := ← takeOr asText fields "root_volume_type" "gp3"
    encrypted := ← takeOr asFlag fields "root_volume_encrypted" false
    tags := ← takeOr asTags fields "root_volume_tags" .empty }

def metadataPolicyOf (fields : Fields) : Except ReadError MetadataPolicy := do
  return {
    httpEndpointEnabled := (← takeOr asText fields "http_endpoint" "enabled") == "enabled"
    tokensRequired := (← takeOr asText fields "http_tokens" "optional") == "required"
    hopLimit := ← takeOr asInteger fields "http_hop_limit" 1
    tagsExposed := (← takeOr asText fields "metadata_tags" "disabled") == "enabled" }

def ofAttributes (fields : Fields) : Except ReadError InstanceRecord := do
  let tags ← take asTags fields "tags"
  let name ← match tags.get? "Name" with
    | some name => pure name
    | none => throw .noName
  let volumes ← asVolumes 1 (← takeOr asList fields "ebs_volumes" [])
  let groups ← match allTexts? (← takeOr asList fields "security_group_ids" []) with
    | some groups => pure groups
    | none => throw .groupsNotTexts
  let image ← take asText fields "ami"
  let instanceClass ← take asText fields "instance_type"
  let subnetId ← take asText fields "subnet_id"
  let vpcId ← take asText fields "vpc_id"
  let privateIp ← takeOr asText? fields "private_ip" none
  let iamProfile ← takeOr asText? fields "iam_instance_profile" none
  let keyName ← takeOr asText? fields "key_name" none
  let monitoringEnabled ← takeOr asFlag fields "monitoring" false
  let rootVolume ← rootVolumeOf fields
  let userDataPath ← takeOr asText? fields "user_data_path" none
  let metadataPolicy ← metadataPolicyOf fields
  let terminationProtected ← takeOr asFlag fields "termination_protection" false
  let stopProtected ← takeOr asFlag fields "stop_protection" false
  return {
    name
    image
    instanceClass
    network := { subnetId, vpcId, privateIp, securityGroupIds := groups }
    identity := { iamProfile, keyName }
    monitoringEnabled
    rootVolume
    extraVolumes := volumes
    userDataPath
    metadataPolicy
    protection := { terminationProtected, stopProtected }
    tags := tags.filterKeys fun k => !standardTagKeys.contains k
    environment := (tags.get? "Environment").getD defaultEnvironment }

/-! ## Reading blocks -/

/-- Why a block describes no record. -/
inductive BlockError where
  | malformed (e : Literal.SyntaxError)
  | notObject (key : String)
  | unreadable (key : String) (e : ReadError)
  deriving Repr

def BlockError.message : BlockError → String
  | .malformed e => "Cannot parse record block: " ++ e.message
  | .notObject key => "Record '" ++ key ++ "' is not an object"
  | .unreadable key e => "Record '" ++ key ++ "': " ++ e.message

def parse (text : String) : Except Literal.Fault (Except BlockError (String × InstanceRecord)) :=
  match Literal.parseEntry text with
  | .error (.malformed e) => .ok (.error (.malformed e))
  | .error e => .error e
  | .ok (key, .object fields) =>
    match ofAttributes fields with
    | .ok r => .ok (.ok (key, r))
    | .error e => .ok (.error (.unreadable key e))
  | .ok (key, _) => .ok (.error (.notObject key))

end Record
end InstanceInventory
