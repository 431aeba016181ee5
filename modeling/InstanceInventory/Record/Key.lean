import InstanceInventory.Text.Blank

/-! # Resource keys

* `keyOf`: the key under which an instance of a given name is kept.
* `addressOf`: the address of the managed resource with a key.
-/

namespace InstanceInventory.Record
set_option autoImplicit false

/-- An ASCII letter or digit. -/
def isAlphanumeric (c : Char) : Bool :=
  ('A' ≤ c && c ≤ 'Z') || ('a' ≤ c && c ≤ 'z') || ('0' ≤ c && c ≤ '9')

/-- The characters of a key: letters and digits stay, and every run of other characters becomes one
underscore; `inRun` tells that such a run is being read. -/
def keyFrom (inRun : Bool) : List Char → List Char
  | [] => []
  | c :: cs =>
    if isAlphanumeric c then c :: keyFrom false cs
    else if inRun then keyFrom true cs
    else '_' :: keyFrom true cs

/-- The key of an instance of a given name. Blanks around the name do not count. -/
def keyOf (name : String) : String :=
  String.ofList (keyFrom false (Text.trimChars name.toList))

def resourceType : String := "aws_instance"

def resourceName : String := "managed_instances"

def addressOf (key : String) : String :=
  resourceType ++ "." ++ resourceName ++ "[\"" ++ key ++ "\"]"

end InstanceInventory.Record
