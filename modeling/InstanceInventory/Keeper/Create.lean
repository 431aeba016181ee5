import InstanceInventory.Keeper.Basic

/-! # Creating an instance

* `Keeper.creation`: asks for a new instance and adds it to the document.
* `Keeper.gather`: what is asked for before the lock is taken.
* `Keeper.add`: adds a draft to the document as it is once the lock is taken.
* `Keeper.create`: creates an instance, where nobody else is at work.
-/

namespace InstanceInventory.Keeper
set_option autoImplicit false

/-! ## Asking -/

/-- Tells what the document holds before an instance is added. -/
def introduceCreation (k : Keeper) (text : String) : Process Unit := do
  if ← Action.read k.store.isPresent then
    Action.status (k.documentName ++ " exists - will add to existing instances")
    Action.say "Current instances:"
    showKeys (← Document.keysOf text) "None found"
  else Action.status ("No existing " ++ k.documentName ++ " found - will create new one")

/-- Asks for a new instance, which is checked, and gives its draft and its key; nothing is given if
the operator gives up. A key that the document holds already is refused before the rest is asked
for. -/
def gather (k : Keeper) : Process (Option (Draft × String)) := do
  Action.begin
  Action.displayAll (Console.Item.header "EC2 INSTANCE CREATOR")
  let text ← k.store.readText
  let _ ← Document.demandMap text
  k.introduceCreation text
  let name ← Prompt.name
  let key := Record.keyOf name
  Action.status ("Resource name will be: " ++ key)
  if (← Document.keysOf text).contains key then
    refuseDuplicate text key
  else
    let d ← Prompt.collectRecord k.settings k.client name
    Action.ofExcept d.validate
    Prompt.showSummary d "Configuration Summary"
    if ← Prompt.confirm ("Add this instance to " ++ k.documentName ++ "?") false then
      return some (d, key)
    else
      Action.cancel "Cancelled."
      return none

/-! ## Adding -/

/-- Adds a draft under a key to a document that holds other keys. -/
def addTo (k : Keeper) (text : String) (d : Draft) (key : String) (keys : List String) :
    Process Unit := do
  let _ ← k.backup
  let blocks ← Document.blocksWithout text none
  let block ← Action.ofShape (d.block Record.blockLevel)
  k.writeDocument (blocks ++ [block]) (keys ++ [key])

/-- Adds a draft to the document, and gives the keys that it held; nothing is given if the operator
gives up. -/
def add (k : Keeper) (d : Draft) (key : String) : Process (Option (List String)) := do
  let text ← k.store.readText
  let keys ← Document.keysOf text
  if keys.contains key then
    refuseDuplicate text key
  else if !(← k.accepts text false) then
    Action.cancel "Cancelled."
    return none
  else
    k.addTo text d key keys
    return some keys

/-- What is said once an instance was added. -/
def creationNotes (k : Keeper) : List String :=
  ["\nNext steps:", "1. Review " ++ k.documentName, "2. Run: terraform validate",
    "3. Run: terraform plan", "4. Run: terraform apply"]

/-- Tells that an instance was added to a document with certain keys. -/
def reportCreation (k : Keeper) (d : Draft) (key : String) (keys : List String) : Action Unit := do
  Action.success ("Added instance '" ++ key ++ "' to " ++ k.documentName)
  Action.step "configuration" true (d.name.display ++ " (" ++ d.instanceClass.display ++
    ", " ++ d.image.display ++ ")")
  if !keys.isEmpty then Action.success "Existing instances preserved in configuration"
  Action.drawAll (k.creationNotes.map .line)

/-- Asks for a new instance and adds it to the document. -/
def creation (k : Keeper) : Operation where
  store := k.store
  Plan := Draft × String
  Outcome := Option (List String)
  before := k.gather
  under p := k.add p.1 p.2
  after
    | _, none => pure ()
    | (d, key), some keys => k.reportCreation d key keys

/-- Creates an instance, where nobody else is at work. -/
def create (k : Keeper) : Action Unit :=
  k.creation.alone

end InstanceInventory.Keeper
