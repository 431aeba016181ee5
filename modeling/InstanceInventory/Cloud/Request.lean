import InstanceInventory.Script
import InstanceInventory.Value.Table

/-! # Requests to the provider

* `Request`: what the provider is asked, with its service, operation and arguments.
* `Failure`: why a request fails, with its wording.
* `Attempt`: what one attempt delivers, page by page.
* `Script`: what the attempts to come will deliver.
-/

namespace InstanceInventory.Cloud
set_option autoImplicit false

/-! ## Requests -/

/-- An attribute that protects an instance. -/
inductive Guard where
  | termination
  | stop
  deriving DecidableEq, Repr

/-- What the provider is asked. -/
inductive Request where
  | callerIdentity
  | images (pattern owner : String)
  | instance (id : String)
  | volume (id : Value)
  | guard (id : String) (g : Guard)
  | networks
  | subnets (network : String)
  | securityGroups (network : String)
  | instanceProfiles
  | keyPairs
  | instances
  deriving Repr

namespace Request

def service : Request → String
  | .callerIdentity => "sts"
  | .instanceProfiles => "iam"
  | _ => "ec2"

def operation : Request → String
  | .callerIdentity => "GetCallerIdentity"
  | .images .. => "DescribeImages"
  | .instance _ | .instances => "DescribeInstances"
  | .volume _ => "DescribeVolumes"
  | .guard .. => "DescribeInstanceAttribute"
  | .networks => "DescribeVpcs"
  | .subnets _ => "DescribeSubnets"
  | .securityGroups _ => "DescribeSecurityGroups"
  | .instanceProfiles => "ListInstanceProfiles"
  | .keyPairs => "DescribeKeyPairs"

def isPaged : Request → Bool
  | .networks | .subnets _ | .securityGroups _ | .instanceProfiles | .instances => true
  | _ => false

def only (s : String) : Value :=
  .list [.text s]

def filter (name value : String) : Value :=
  .object [("Name", .text name), ("Values", only value)]

def arguments : Request → Fields
  | .images pattern owner =>
    [("Owners", only owner),
      ("Filters", .list [filter "name" pattern, filter "state" "available"])]
  | .instance id => [("InstanceIds", only id)]
  | .volume id => [("VolumeIds", .list [id])]
  | .guard id .termination =>
    [("InstanceId", .text id), ("Attribute", .text "disableApiTermination")]
  | .guard id .stop => [("InstanceId", .text id), ("Attribute", .text "disableApiStop")]
  | .subnets network | .securityGroups network =>
    [("Filters", .list [filter "vpc-id" network])]
  | _ => []

def purpose : Request → String
  | .callerIdentity => "get caller identity"
  | .images pattern _ => "find images matching " ++ pattern
  | .instance id => "describe instance " ++ id
  | .volume id => "describe volume " ++ id.display
  | .guard id .termination => "read termination protection of " ++ id
  | .guard id .stop => "read stop protection of " ++ id
  | .networks => "list VPCs"
  | .subnets network => "list subnets of " ++ network
  | .securityGroups network => "list security groups of " ++ network
  | .instanceProfiles => "list IAM instance profiles"
  | .keyPairs => "list key pairs"
  | .instances => "list instances"

end Request

/-! ## Failures -/

/-- Why a request fails. -/
inductive Failure where
  /-- The provider refuses an operation; the code and the reason may be missing. -/
  | refused (operation : String) (code reason : Option Value)
  | unreachable (url : String)
  | connectTimeout (url : String)
  | noCredentials
  | noProfile (name : String)
  /-- Any other failure on the way to the provider, by the name of its kind. -/
  | other (name wording : String)
  deriving Repr

namespace Failure

def name : Failure → String
  | .refused .. => "ClientError"
  | .unreachable _ => "EndpointConnectionError"
  | .connectTimeout _ => "ConnectTimeoutError"
  | .noCredentials => "NoCredentialsError"
  | .noProfile _ => "ProfileNotFound"
  | .other name _ => name

/-- What the provider says of a failure. -/
def said : Option Value → String
  | some v => v.display
  | none => "Unknown"

def wording : Failure → String
  | .refused operation code reason =>
    "An error occurred (" ++ said code ++ ") when calling the " ++ operation ++
      " operation: " ++ said reason
  | .unreachable url => "Could not connect to the endpoint URL: \"" ++ url ++ "\""
  | .connectTimeout url => "Connect timeout on endpoint URL: \"" ++ url ++ "\""
  | .noCredentials => "Unable to locate credentials"
  | .noProfile name => "The config profile (" ++ name ++ ") could not be found"
  | .other _ wording => wording

def message (f : Failure) : String :=
  f.name ++ ": " ++ f.wording

/-- The codes with which the provider asks to try again later. -/
def transientCodes : List String :=
  ["Throttling", "ThrottlingException", "RequestLimitExceeded", "RequestThrottled",
    "ServiceUnavailable", "InternalError"]

/-- Whether another attempt may succeed. A code that cannot be a key cannot be looked up. -/
def isTransient : Failure → Except ShapeFault Bool
  | .refused _ code _ => do
    let c ← (code.getD .null).asKey
    return transientCodes.any c.isText
  | .unreachable _ | .connectTimeout _ => .ok true
  | .noCredentials | .noProfile _ | .other .. => .ok false

end Failure

/-! ## Attempts -/

/-- What one attempt delivers: some pages, and then the end or a failure. An answer that does not
come in pages is the only page. -/
structure Attempt where
  pages : List Value
  failure : Option Failure := none
  deriving Inhabited

/-- The attempts to come, by the operation and by whether its answer comes in pages. -/
abbrev Script := InstanceInventory.Script (String × Bool) Attempt

/-- The attempt about which nothing is known: an object without fields, or no pages. -/
def Attempt.bare (r : Request) : Attempt where
  pages := if r.isPaged then [] else [Value.emptyObject]

end InstanceInventory.Cloud
