import InstanceInventory.CommandLine.Display
import InstanceInventory.Keeper.Create
import InstanceInventory.Keeper.Import
import InstanceInventory.Keeper.Remove

/-! # The menu

* `Choice`: what the menu offers.
* `menu`: offers the choices until the operator leaves.
-/

namespace InstanceInventory.CommandLine
set_option autoImplicit false

/-! ## Choices -/

/-- What the menu offers. -/
inductive Choice where
  | list | create | importInstance | validate | plan | apply | remove | backup | leave
  deriving DecidableEq, Repr

/-- The choices in the order of the menu, with their labels. -/
def choices : List (Choice × String) :=
  [(.list, "List instances"), (.create, "Create new instance"),
    (.importInstance, "Import existing instance"), (.validate, "Validate configuration"),
    (.plan, "Plan changes"), (.apply, "Apply changes"),
    (.remove, "Remove instance from configuration"), (.backup, "Backup state"), (.leave, "Exit")]

def choiceItems : List Console.Item :=
  (choices.zipIdx 1).map fun e => .line ("  " ++ countText e.2 ++ ") " ++ e.1.2)

/-! ## Steps -/

/-- Asks once for the name of something and goes on with it, if there is one. -/
def withNamed (question complaint : String) (act : String → Action Unit) : Action Unit := do
  let name ← Prompt.text question none
  if name.isEmpty then Action.complain complaint else act name

/-- Checks everything, and shows how that went even if it is cut short. -/
def validateAndDisplay (k : Keeper) : Action Unit := do
  let r ← Action.observe k.validate
  displayResults "Validation Results"
  Action.ofExcept r

/-- Asks for an instance and removes it, from Terraform's state too. -/
def removeChosen (k : Keeper) : Action Unit := do
  let keys ← Document.keysOf (← k.store.readText)
  Action.say "Current instances:"
  Keeper.showKeys keys "None found"
  withNamed "Enter resource name to remove" "A resource name is required" fun key => do
    k.remove key true
    displayResults "Remove Results"

/-- Does what was chosen; the last choice does nothing. -/
def perform (k : Keeper) : Choice → Action Unit
  | .list => do displayInventory (← k.listInstances)
  | .create => do
    k.create
    displayResults "Create Results"
  | .importInstance =>
    withNamed "Enter instance ID to import" "An instance id is required" fun id => do
      k.importInstance id false
      displayResults "Import Results"
  | .validate => validateAndDisplay k
  | .plan => k.plan
  | .apply => k.apply false
  | .remove => removeChosen k
  | .backup => do
    k.backupState
    displayResults "Backup Results"
  | .leave => pure ()

/-- Does what was chosen. A report is shown, and so is the wish to stop; the menu goes on after
either. -/
def performSafely (k : Keeper) (c : Choice) : Action Unit := do
  match ← Action.observe (perform k c) with
  | .ok () => pure ()
  | .error (.report r) => displayReport r
  | .error .interrupted => Action.warn "Interrupted"
  | .error f => throw f

/-! ## The menu -/

/-- Offers the choices once. -/
def menuRound (k : Keeper) (_ : Unit) : Action (Unit ⊕ Unit) := do
  Action.displayAll (Console.Item.header "EC2 INSTANCE MANAGEMENT")
  Action.displayAll choiceItems
  Action.say ""
  let number ← Prompt.numberTo "Choose option" choices.length
  match (choices[(number - 1).toNat]?).map Prod.fst with
  | some .leave | none => return .inr ()
  | some c => do
    performSafely k c
    Action.say ""
    let _ ← Prompt.untilGood "Press Enter to continue" [] none (some "") .ok
    return .inl ()

/-- What the menu says about itself. -/
def menuPanel (s : Settings) : Console.Item :=
  .panel ("EC2 Terraform Manager\nRegion: " ++ s.region ++ " | Configuration: " ++
    s.documentPath.text)

/-- Offers the choices until the operator leaves. -/
def menu (k : Keeper) : Action Unit :=
  Prompt.untilDone (menuRound k) ()

end InstanceInventory.CommandLine
