import InstanceInventory.Record.Basic
import InstanceInventory.Value.Access

/-! # Drafts of records

* `Draft`: what is gathered about an instance before it is checked; the provider may have answered
  with values of any kind.
* `InstanceRecord.draft`: a record as a draft.
* `Draft.key`, `Draft.address`, `Draft.allTags`: what follows from a draft as from a record.
-/

namespace InstanceInventory
set_option autoImplicit false

/-- A further volume of a draft. -/
structure DraftVolume where
  devicePath : Value
  sizeGib : Value := .ofInt 100
  volumeType : Value := .text "gp3"
  encrypted : Value := .bool true
  deleteOnTermination : Value := .bool false
  label : Value := .text "volume-1"
  deriving Inhabited

/-- What is gathered about an instance. -/
structure Draft where
  name : Value
  image : Value
  instanceClass : Value
  subnetId : Value
  vpcId : Value
  privateIp : Value := .null
  securityGroupIds : List Value := []
  iamProfile : Value := .null
  keyName : Value := .null
  monitoringEnabled : Value := .bool false
  rootSizeGib : Value := .ofInt 20
  rootVolumeType : Value := .text "gp3"
  rootEncrypted : Value := .bool true
  rootTags : Fields := []
  extraVolumes : List DraftVolume := []
  userDataPath : Value := .null
  httpEndpointEnabled : Value := .bool true
  tokensRequired : Value := .bool true
  hopLimit : Value := .ofInt 2
  tagsExposed : Value := .bool true
  terminationProtected : Value := .bool false
  stopProtected : Value := .bool false
  tags : Fields := []
  environment : Value := .text defaultEnvironment
  deriving Inhabited

/-! ## Records as drafts -/

def Tags.fields (t : Tags) : Fields :=
  t.entries.map fun e => (e.1, .text e.2)

def ExtraVolume.draft (v : ExtraVolume) : DraftVolume where
  devicePath := .text v.devicePath
  sizeGib := .ofInt v.sizeGib
  volumeType := .text v.volumeType
  encrypted := .bool v.encrypted
  deleteOnTermination := .bool v.deleteOnTermination
  label := .text v.label

def InstanceRecord.draft (r : InstanceRecord) : Draft where
  name := .text r.name
  image := .text r.image
  instanceClass := .text r.instanceClass
  subnetId := .text r.network.subnetId
  vpcId := .text r.network.vpcId
  privateIp := .ofText? r.network.privateIp
  securityGroupIds := r.network.securityGroupIds.map .text
  iamProfile := .ofText? r.identity.iamProfile
  keyName := .ofText? r.identity.keyName
  monitoringEnabled := .bool r.monitoringEnabled
  rootSizeGib := .ofInt r.rootVolume.sizeGib
  rootVolumeType := .text r.rootVolume.volumeType
  rootEncrypted := .bool r.rootVolume.encrypted
  rootTags := r.rootVolume.tags.fields
  extraVolumes := r.extraVolumes.map ExtraVolume.draft
  userDataPath := .ofText? r.userDataPath
  httpEndpointEnabled := .bool r.metadataPolicy.httpEndpointEnabled
  tokensRequired := .bool r.metadataPolicy.tokensRequired
  hopLimit := .ofInt r.metadataPolicy.hopLimit
  tagsExposed := .bool r.metadataPolicy.tagsExposed
  terminationProtected := .bool r.protection.terminationProtected
  stopProtected := .bool r.protection.stopProtected
  tags := r.tags.fields
  environment := .text r.environment

namespace Draft

/-! ## What follows -/

def key (d : Draft) : Except ShapeFault String :=
  d.name.asText.map Record.keyOf

def address (d : Draft) : Except ShapeFault String :=
  d.key.map Record.addressOf

def standardTags (d : Draft) : Fields :=
  [("Name", d.name), ("Terraform", .text "true"), ("Environment", d.environment)]

/-- The tags of an instance: the standard ones, then the custom ones with other keys. -/
def allTags (d : Draft) : Fields :=
  d.standardTags ++ d.tags.filter fun e => !standardTagKeys.contains e.1

end Draft
end InstanceInventory
