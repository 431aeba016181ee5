import InstanceInventory.Record.Draft
import InstanceInventory.Text.Lowercase

/-! # Summaries of records

* `Draft.summary`: what there is to say about a draft, as labels with values.
* `InstanceRecord.summary`: the same for a record.
-/

namespace InstanceInventory
set_option autoImplicit false

namespace Record

def flagText (v : Value) : String :=
  Text.lower v.display

abbrev SummaryRow := String × Value

end Record

open Record (flagText SummaryRow)

namespace Draft

def groupTexts (d : Draft) : Except ShapeFault (List String) :=
  d.securityGroupIds.mapM fun
    | .text id => .ok id
    | _ => .error .unexpectedKind

def rootText (d : Draft) : String :=
  d.rootSizeGib.display ++ "GB " ++ d.rootVolumeType.display ++
    " (encrypted: " ++ flagText d.rootEncrypted ++ ")"

def volumeText (v : DraftVolume) : String :=
  v.devicePath.display ++ " " ++ v.sizeGib.display ++ "GB " ++ v.volumeType.display

/-- What there is to say about the protection of a draft. -/
def protectionText (d : Draft) : String :=
  "termination: " ++ flagText d.terminationProtected ++ ", stop: " ++ flagText d.stopProtected

/-- What there is to say about the tags of a draft. -/
def tagsText (d : Draft) : String :=
  ", ".intercalate (d.allTags.map fun e => e.1 ++ "=" ++ e.2.display)

def summary (d : Draft) : Except ShapeFault (List SummaryRow) := do
  let key ← d.key
  let groups ← d.groupTexts
  return [("Instance Name", d.name),
    ("Resource Name", .text key),
    ("Instance Type", d.instanceClass),
    ("AMI ID", d.image),
    ("VPC", d.vpcId),
    ("Subnet", d.subnetId),
    ("Security Groups", (Value.text (" ".intercalate groups)).orElse (.text "-")),
    ("Private IP", d.privateIp.orElse (.text "auto-assign")),
    ("IAM Profile", d.iamProfile.orElse (.text "-")),
    ("Key Pair", d.keyName.orElse (.text "-")),
    ("Root Volume", .text d.rootText)] ++
  d.extraVolumes.map (fun v => ("Additional Volume", .text (volumeText v))) ++
  [("Protection", .text d.protectionText), ("Tags", .text d.tagsText)]

end Draft
end InstanceInventory
