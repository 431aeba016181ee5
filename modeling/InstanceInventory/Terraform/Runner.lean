import InstanceInventory.Action
import InstanceInventory.Text.Blank
import InstanceInventory.Text.Search
import InstanceInventory.Text.Split

/-! # Running Terraform

* `Runner`: Terraform in a directory.
* `Runner.run`: a command, which must succeed.
* `Runner.stateList`: the addresses that are tracked; none where there is no state yet.
-/

namespace InstanceInventory.Terraform
set_option autoImplicit false

/-- Terraform in a directory. -/
structure Runner where
  directory : Files.Path
  binary : String

namespace Runner

/-- Terraform in a directory, which counts without its steps upward. -/
def of (directory : Files.Path) (binary : String) : Runner where
  directory := directory.normalize
  binary

def start (r : Runner) (c : Command) : Action (Int × String × String) := do
  let words := c.words r.binary
  Action.note ("Running: " ++ " ".intercalate words ++ " (in " ++ r.directory.text ++ ")")
  let s ← get
  let (outcome, provisioner) := (s.provisioner.next? c.name).getD (.quiet, s.provisioner)
  set { s with provisioner, made := .run words r.directory :: s.made }
  Action.did (.ran c outcome)
  match outcome with
  | .finished status stdout stderr => return (status, stdout, stderr)
  | .missing => Action.report (.terraform words 127 (r.binary ++ " executable not found"))

/-- What a command prints, which must succeed. -/
def run (r : Runner) (c : Command) : Action String := do
  let (status, stdout, stderr) ← r.start c
  if status = 0 then return stdout
  else Action.report (.terraform (c.words r.binary) status stderr)

def noState : String := "No state file was found"

/-- The lines of what a command printed that are not blank, without the blanks around them. -/
def outputLines (stdout : String) : List String :=
  let ls := (Text.splitWhen Text.isLineBoundary stdout.toList).map Text.trimChars
  (ls.filter fun l => !l.isEmpty).map String.ofList

/-- The addresses that are tracked; none where there is no state yet. -/
def stateList (r : Runner) : Action (List String) := do
  let (status, stdout, stderr) ← r.start .stateList
  if status = 0 then return outputLines stdout
  else if Text.contains stderr noState then
    Action.note ("terraform state list: " ++ Text.trim stderr)
    return []
  else Action.report (.terraform (Command.stateList.words r.binary) status stderr)

def isTracked (r : Runner) (address : String) : Action Bool := do
  return (← r.stateList).contains address

end Runner
end InstanceInventory.Terraform
