import InstanceInventory.Record.Basic
import InstanceInventory.Retry
import InstanceInventory.Value.Access

/-! # The provider's inventory

* `Client`: access to the provider in a region.
* `Client.connect`: opens the access.
* `Client.call`: a request, tried again while its failures are transient.
* `Client.listing`, with `Client.listNetworks` and the like: what there is, as rows.
-/

namespace InstanceInventory.Cloud
set_option autoImplicit false

/-- Access to the provider in a region. -/
structure Client where
  region : String
  profile : Option String
  policy : Retry.Policy

/-- A row of data under headings. -/
abbrev Row := Fields

def judge : Retry.Judge Failure where
  wording := Failure.wording
  isTransient := Failure.isTransient

namespace Client

/-! ## Requests -/

def connect (region : String) (profile : Option String) (policy : Retry.Policy) :
    Action Client := do
  modify fun s => { s with made := .connect profile region :: s.made }
  let missing := (← get).missingProfiles
  match profile.filter missing.contains with
  | some name =>
    Action.fail .provider ("Failed to create AWS session: " ++ (Failure.noProfile name).message)
  | none => return { region, profile, policy }

/-- One attempt of a request. `collect` makes of the pages what is wanted; pages that came before a
failure are collected and then dropped. -/
def attempt {α : Type} (r : Request) (collect : List Value → Except ShapeFault α) :
    Action (Except Failure α) := do
  let s ← get
  let (a, provider) := (s.provider.next? (r.operation, r.isPaged)).getD (.bare r, s.provider)
  set { s with provider, made := .request r :: s.made }
  let v ← Action.ofShape (collect a.pages)
  match a.failure with
  | some f => return .error f
  | none => return .ok v

/-- A request, tried again while its failures are transient. -/
def call {α : Type} (c : Client) (r : Request) (collect : List Value → Except ShapeFault α) :
    Action α := do
  Action.note ("AWS: " ++ r.purpose)
  match ← Retry.run c.policy judge r.purpose (attempt r collect) with
  | .ok v => return v
  | .error f => Action.fail .provider ("Failed to " ++ r.purpose ++ ": " ++ f.message)

/-- The answer to a request that does not come in pages. -/
def answer (c : Client) (r : Request) : Action Value :=
  c.call r fun pages => .ok (pages.headD Value.emptyObject)

/-- The items of all pages, in order. -/
def pageItems (field : String) : List Value → Except ShapeFault (List Value)
  | [] => .ok []
  | page :: pages => do
    let items ← page.fieldItems field
    return items ++ (← pageItems field pages)

/-- The items of all pages of the answer to a request. -/
def items (c : Client) (r : Request) (field : String) : Action (List Value) :=
  c.call r (pageItems field)

/-! ## Parts of answers -/

/-- The value of the first tag named `Name`. -/
def nameOfTags : List Value → Except ShapeFault Value
  | [] => .ok (.text "")
  | tag :: tags => do
    if (← tag.fieldOr "Key" .null).isText "Name" then tag.fieldOr "Value" (.text "")
    else nameOfTags tags

/-- The name in the tags of something described. -/
def nameTag (d : Value) : Except ShapeFault Value := do
  let tags ← d.fieldOr "Tags" (.list [])
  if tags.isTruthy then nameOfTags (← tags.items) else return .text ""

/-- A cell with a field, empty where the field is not there. -/
def cell (d : Value) (heading field : String) : Except ShapeFault (String × Value) := do
  return (heading, ← d.fieldOr field (.text ""))

def keyCell (d : Value) (field : String) : Except ShapeFault (String × Value) := do
  return (field, ← d.field field)

def nameCell (d : Value) : Except ShapeFault (String × Value) := do
  return ("Name", ← nameTag d)

/-! ## Images -/

def madeAt (image : Value) : Except ShapeFault Value :=
  image.fieldOr "CreationDate" (.text "")

/-- The image made last, of one made at `time` and others; the first of several. -/
def latest (image time : Value) : List Value → Except ShapeFault Value
  | [] => .ok image
  | other :: others => do
    let otherTime ← madeAt other
    if ← time.less? otherTime then latest other otherTime others
    else latest image time others

/-- The newest image of an owner whose name matches a pattern, if there is one. -/
def findLatestImage (c : Client) (pattern owner : String) : Action (Option Value) := do
  let found ← (← c.answer (.images pattern owner)) |>.fieldOr "Images" (.list []) |> Action.ofShape
  if !found.isTruthy then return none
  match ← Action.ofShape found.items with
  | [] => return none
  | image :: others =>
    Action.ofShape do
      let newest ← latest image (← madeAt image) others
      return some (← newest.field "ImageId")

/-! ## Instances and volumes -/

def firstInstance? : List Value → Except ShapeFault (Option Value)
  | [] => .ok none
  | r :: rs => do
    match ← r.fieldItems "Instances" with
    | i :: _ => return some i
    | [] => firstInstance? rs

def describeInstance (c : Client) (id : String) : Action Value := do
  let d ← c.answer (.instance id)
  match ← Action.ofShape (do firstInstance? (← d.fieldItems "Reservations")) with
  | some i => return i
  | none => Action.fail .provider ("Instance " ++ id ++ " not found")

def describeVolume (c : Client) (id : Value) : Action Value := do
  let d ← c.answer (.volume id)
  let found ← Action.ofShape (d.fieldOr "Volumes" (.list []))
  if found.isTruthy then Action.ofShape found.first
  else Action.fail .provider ("Volume " ++ id.display ++ " not found")

def isOn (d : Value) (field : String) : Except ShapeFault Bool := do
  return (← (← d.fieldOr field Value.emptyObject).fieldOr "Value" (.bool false)).isTruthy

def instanceProtection (c : Client) (id : String) : Action Protection := do
  let termination ← c.answer (.guard id .termination)
  let stop ← c.answer (.guard id .stop)
  Action.ofShape do
    return {
      terminationProtected := ← isOn termination "DisableApiTermination"
      stopProtected := ← isOn stop "DisableApiStop" }

/-- The id of the volume behind a device mapping; it does not count as present where there is no
volume. -/
def volumeId (mapping : Value) : Except ShapeFault Value := do
  (← mapping.fieldOr "Ebs" .emptyObject).fieldOr "VolumeId" .null

/-- The described volumes behind device mappings, on top of a table. -/
def addVolumes (c : Client) (table : Value.Table) : List Value → Action Value.Table
  | [] => return table
  | m :: ms => do
    let id ← Action.ofShape (volumeId m)
    if id.isTruthy then
      let v ← c.describeVolume id
      c.addVolumes (← Action.ofShape (table.set id v)) ms
    else c.addVolumes table ms

def collectVolumes (c : Client) (described : Value) : Action Value.Table := do
  c.addVolumes [] (← Action.ofShape (described.fieldItems "BlockDeviceMappings"))

/-! ## Listings -/

/-- The account that is used, with its name. -/
def callerIdentity (c : Client) : Action Row := do
  let d ← c.answer .callerIdentity
  Action.ofShape do
    return [← cell d "account" "Account", ← cell d "arn" "Arn"]

/-- The items of the answer to a request, each with what is made of it. -/
def listing {α : Type} (c : Client) (r : Request) (field : String)
    (row : Value → Except ShapeFault α) : Action (List α) := do
  let ds ← c.items r field
  Action.ofShape (ds.mapM row)

def networkRow (d : Value) : Except ShapeFault Row := do
  return [← keyCell d "VpcId", ← nameCell d, ← cell d "CIDR" "CidrBlock"]

def listNetworks (c : Client) : Action (List Row) :=
  c.listing .networks "Vpcs" networkRow

def subnetRow (d : Value) : Except ShapeFault Row := do
  return [← keyCell d "SubnetId", ← nameCell d, ← cell d "CIDR" "CidrBlock",
    ← cell d "AZ" "AvailabilityZone"]

def listSubnets (c : Client) (network : String) : Action (List Row) :=
  c.listing (.subnets network) "Subnets" subnetRow

def securityGroupRow (d : Value) : Except ShapeFault Row := do
  return [← keyCell d "GroupId", ← cell d "GroupName" "GroupName",
    ← cell d "Description" "Description"]

def listSecurityGroups (c : Client) (network : String) : Action (List Row) :=
  c.listing (.securityGroups network) "SecurityGroups" securityGroupRow

def listInstanceProfiles (c : Client) : Action (List Value) :=
  c.listing .instanceProfiles "InstanceProfiles" fun d => d.field "InstanceProfileName"

def listKeyPairs (c : Client) : Action (List Value) := do
  let d ← c.answer .keyPairs
  Action.ofShape do
    (← d.fieldItems "KeyPairs").mapM fun k => k.field "KeyName"

def instanceRow (d : Value) : Except ShapeFault Row := do
  let id ← keyCell d "InstanceId"
  let name ← nameCell d
  let type ← cell d "InstanceType" "InstanceType"
  let state ← cell (← d.fieldOr "State" Value.emptyObject) "State" "Name"
  let address ← d.fieldOr "PrivateIpAddress" (.text "")
  return [id, name, type, state,
    ("PrivateIpAddress", if address.isTruthy then address else .text "")]

def instanceRows : List Value → Except ShapeFault (List Row)
  | [] => .ok []
  | r :: rs => do
    let rows ← (← r.fieldItems "Instances").mapM instanceRow
    return rows ++ (← instanceRows rs)

def listInstances (c : Client) : Action (List Row) := do
  let rs ← c.items .instances "Reservations"
  Action.ofShape (instanceRows rs)

end Client
end InstanceInventory.Cloud
