import InstanceInventory.Fault
import InstanceInventory.Record.Draft

/-! # Validating records

* `Problem`: a rule that a draft breaks.
* `Draft.problems`: every problem of a draft, in the order of its fields.
* `Draft.validate`: passes a draft without problems and refuses any other.
-/

namespace InstanceInventory
set_option autoImplicit false

namespace Record

/-- A rule that a draft breaks. -/
inductive Problem where
  | emptyName
  | emptyKey (name : String)
  | emptyField (label : String)
  | invalidGroup (id : String)
  | rootSize
  | volumeSize (device : String)
  | devicePrefix (device : String)
  | repeatedDevice (device : String)
  | hopLimit
  | emptyTagKey
  | standardTagKey (key : String)
  | emptyEnvironment
  deriving DecidableEq, Repr

def Problem.message : Problem → String
  | .emptyName => "instance name is empty"
  | .emptyKey name => "instance name " ++ Text.quoted name ++ " yields an empty resource key"
  | .emptyField label => label ++ " is empty"
  | .invalidGroup id => "invalid security group id " ++ Text.quoted id ++ " (expected sg-xxxxxxxx)"
  | .rootSize => "root volume size must be positive"
  | .volumeSize device => "volume " ++ device ++ " size must be positive"
  | .devicePrefix device => "device path " ++ Text.quoted device ++ " must start with /dev/"
  | .repeatedDevice device => "device path " ++ device ++ " is used twice"
  | .hopLimit => "metadata hop limit must be between 1 and 64"
  | .emptyTagKey => "tag keys may not be empty"
  | .standardTagKey key =>
    "tag " ++ Text.quoted key ++ " is set automatically and may not be given as a custom tag"
  | .emptyEnvironment => "environment is empty"

/-! ## Rules -/

def isLowerHexDigit (c : Char) : Bool :=
  ('0' ≤ c && c ≤ '9') || ('a' ≤ c && c ≤ 'f')

/-- A text without the newline that may end it. -/
def dropFinalNewline (cs : List Char) : List Char :=
  if cs.getLast? = some '\n' then cs.dropLast else cs

/-- The form of a security group id: `sg-` and hexadecimal digits; a newline may end it. -/
def isSecurityGroupId (id : String) : Bool :=
  match dropFinalNewline id.toList with
  | 's' :: 'g' :: '-' :: digits => !digits.isEmpty && digits.all isLowerHexDigit
  | _ => false

/-- The problem of a condition that does not hold. -/
def demand (holds : Bool) (p : Problem) : List Problem :=
  if holds then [] else [p]

def nameProblems (name : String) : List Problem :=
  if Text.isBlankText name then [.emptyName]
  else demand ((keyOf name).toList.any (· != '_')) (.emptyKey name)

/-- The problems of a text that must be given. -/
def givenProblems (label : String) (v : Value) : Except ShapeFault (List Problem) := do
  if v.isTruthy then return demand (!Text.isBlankText (← v.asText)) (.emptyField label)
  else return [.emptyField label]

def groupProblems : Value → Except ShapeFault (List Problem)
  | .text id => .ok (demand (isSecurityGroupId id) (.invalidGroup id))
  | _ => .error .unexpectedKind

def groupsProblems : List Value → Except ShapeFault (List Problem)
  | [] => .ok []
  | g :: gs => do
    let first ← groupProblems g
    return first ++ (← groupsProblems gs)

def isPositive (v : Value) : Except ShapeFault Bool :=
  v.asNumber.map fun n => !n.atMost 0

/-- The problems of further volumes, after volumes with the devices `seen`. -/
def volumeProblems (seen : List String) : List DraftVolume → Except ShapeFault (List Problem)
  | [] => .ok []
  | v :: vs => do
    let positive ← isPositive v.sizeGib
    let device ← v.devicePath.asText
    return demand positive (.volumeSize device) ++
      demand ("/dev/".toList.isPrefixOf device.toList) (.devicePrefix device) ++
      demand (!seen.contains device) (.repeatedDevice device) ++
      (← volumeProblems (device :: seen) vs)

def isHopLimit (v : Value) : Except ShapeFault Bool :=
  v.asNumber.map fun n => n.atLeast 1 && n.atMost 64

def tagProblems (key : String) : List Problem :=
  if Text.isBlankText key then [.emptyTagKey]
  else demand (!standardTagKeys.contains key) (.standardTagKey key)

end Record

open Record

namespace Draft

def problems (d : Draft) : Except ShapeFault (List Problem) := do
  let name := nameProblems (← d.name.asText)
  let image ← givenProblems "image" d.image
  let instanceClass ← givenProblems "instance type" d.instanceClass
  let subnet ← givenProblems "subnet id" d.subnetId
  let vpc ← givenProblems "VPC id" d.vpcId
  let groups ← groupsProblems d.securityGroupIds
  let root := demand (← isPositive d.rootSizeGib) .rootSize
  let volumes ← volumeProblems [] d.extraVolumes
  let hops := demand (← isHopLimit d.hopLimit) .hopLimit
  let tags := d.tags.flatMap fun e => tagProblems e.1
  let environment := demand (!Text.isBlankText (← d.environment.asText)) .emptyEnvironment
  return name ++ image ++ instanceClass ++ subnet ++ vpc ++ groups ++ root ++ volumes ++ hops ++
    tags ++ environment

/-- Passes a draft without problems. -/
def validate (d : Draft) : Except Fault Unit :=
  match d.problems with
  | .error f => .error (.shape f)
  | .ok [] => .ok ()
  | .ok ps => .error (.report (.invalidRecord (ps.map Problem.message)))

end Draft
end InstanceInventory
