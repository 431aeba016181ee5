import InstanceInventory.Script

/-! # Terraform commands

* `Command`: a command that Terraform is given, with its arguments.
* `Outcome`: how the run of a command ends.
* `Script`: how the runs of commands will end, by the name of the command.
-/

namespace InstanceInventory.Terraform
set_option autoImplicit false

/-- A command for Terraform. -/
inductive Command where
  | init (upgrade : Bool)
  | validate
  | plan
  | apply (approved : Bool)
  | stateList
  | stateShow (address : String)
  | stateRemove (address : String)
  | importResource (address id : String)
  deriving DecidableEq, Repr

namespace Command

def name : Command → List String
  | .init _ => ["init"]
  | .validate => ["validate"]
  | .plan => ["plan"]
  | .apply _ => ["apply"]
  | .stateList => ["state", "list"]
  | .stateShow _ => ["state", "show"]
  | .stateRemove _ => ["state", "rm"]
  | .importResource .. => ["import"]

def onlyIf (condition : Bool) (argument : String) : List String :=
  if condition then [argument] else []

/-- The arguments after the name of a command. Nothing may be asked for and nothing coloured. -/
def options : Command → List String
  | .init upgrade => ["-input=false", "-no-color"] ++ onlyIf upgrade "-upgrade"
  | .validate => ["-no-color"]
  | .plan => ["-input=false", "-no-color"]
  | .apply approved => ["-input=false", "-no-color"] ++ onlyIf approved "-auto-approve"
  | .stateList => []
  | .stateShow address => ["-no-color", address]
  | .stateRemove address => [address]
  | .importResource address id => ["-input=false", "-no-color", address, id]

/-- The words of a command after those of the executable. -/
def words (c : Command) (binary : String) : List String :=
  binary :: (c.name ++ c.options)

end Command

/-- How the run of a command ends. -/
inductive Outcome where
  /-- The command ends with a status after what it printed. -/
  | finished (status : Int) (stdout stderr : String)
  /-- There is no such executable. -/
  | missing
  deriving DecidableEq, Repr

/-- The end of a run about which nothing is known: nothing is printed and nothing goes wrong. -/
def Outcome.quiet : Outcome := .finished 0 "" ""

/-- How the coming runs will end, by the name of the command. -/
abbrev Script := InstanceInventory.Script (List String) Outcome

end InstanceInventory.Terraform
