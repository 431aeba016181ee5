import InstanceInventory.Record.Key
import InstanceInventory.Record.Tags

/-! # Instance records

* `InstanceRecord`: the configuration of one managed instance, as the document holds it.
* `InstanceRecord.allTags`: the tags of the instance, the standard ones first.
-/

namespace InstanceInventory
set_option autoImplicit false

/-! ## Parts of a record -/

/-- Where an instance is connected. -/
structure Network where
  subnetId : String
  vpcId : String
  privateIp : Option String := none
  securityGroupIds : List String := []
  deriving DecidableEq

/-- As what an instance acts. -/
structure Identity where
  iamProfile : Option String := none
  keyName : Option String := none
  deriving DecidableEq, Inhabited

/-- The volume that an instance starts from. -/
structure RootVolume where
  sizeGib : Int := 20
  volumeType : String := "gp3"
  encrypted : Bool := true
  tags : Tags := .empty
  deriving DecidableEq, Inhabited

/-- A further volume of an instance. -/
structure ExtraVolume where
  devicePath : String
  sizeGib : Int := 100
  volumeType : String := "gp3"
  encrypted : Bool := true
  deleteOnTermination : Bool := false
  label : String := "volume-1"
  deriving DecidableEq, Inhabited

/-- How an instance may read its own metadata. -/
structure MetadataPolicy where
  httpEndpointEnabled : Bool := true
  tokensRequired : Bool := true
  hopLimit : Int := 2
  tagsExposed : Bool := true
  deriving DecidableEq, Inhabited

/-- Which ways to end an instance are blocked. -/
structure Protection where
  terminationProtected : Bool := false
  stopProtected : Bool := false
  deriving DecidableEq, Inhabited

def defaultEnvironment : String := "staging"

def standardTagKeys : List String := ["Name", "Terraform", "Environment"]

/-- The configuration of one managed instance. `tags` holds the custom tags only; the standard tags
follow from the name and the environment. -/
structure InstanceRecord where
  name : String
  image : String
  instanceClass : String
  network : Network
  identity : Identity := {}
  monitoringEnabled : Bool := false
  rootVolume : RootVolume := {}
  extraVolumes : List ExtraVolume := []
  userDataPath : Option String := none
  metadataPolicy : MetadataPolicy := {}
  protection : Protection := {}
  tags : Tags := .empty
  environment : String := defaultEnvironment
  deriving DecidableEq

namespace InstanceRecord

def key (r : InstanceRecord) : String :=
  Record.keyOf r.name

def address (r : InstanceRecord) : String :=
  Record.addressOf r.key

def standardTags (r : InstanceRecord) : Tags :=
  .ofPairs [("Name", r.name), ("Terraform", "true"), ("Environment", r.environment)]

/-- The tags of an instance: the standard ones, then the custom ones with other keys. -/
def allTags (r : InstanceRecord) : Tags :=
  r.standardTags.addMissing r.tags.entries

end InstanceRecord
end InstanceInventory
