import InstanceInventory.Proofs.Keeper.Backups
import InstanceInventory.Proofs.Keeper.Create
import InstanceInventory.Proofs.Keeper.Drop
import InstanceInventory.Proofs.Keeper.Import

/-! # The document as a ledger

* `Edit.run_turns`: an edit of the document of a ledger leaves the document of the ledger that it makes.
* `Ledger.Turn`: an edit by a keeper of the document that stands at a place.
* `Ledger.Follows`: ledgers that are made one from another.
* `Ledger.document_refines_ledger`: however many edits were done one after another, the document is
  that of the ledger that they make, and its records can be read back.
-/

namespace InstanceInventory
set_option autoImplicit false
open InstanceInventory.Action (Meets)

namespace Ledger
variable {place : Files.Place} {files : Files.Tree} {l : Ledger}

/-- An edit by a keeper of the document at a place, in surroundings of its own: the clock, the
provider, Terraform, and the operator's answers. Others leave the document alone, and the provider
describes an instance by the fields of a record. -/
structure Turn (place : Files.Place) where
  keeper : Keeper
  edit : Edit
  around : Session
  site_eq : around.site keeper.store.path = place
  undisturbed : around.Undisturbed place
  describes : ∀ id assumeYes, edit = .importInstance id assumeYes →
    ∀ files, keeper.Describes id { around with files }

def Turn.start (x : Turn place) (files : Files.Tree) : Session :=
  { x.around with files }

/-- What an edit comes to, and the session after it. -/
def Turn.outcome (x : Turn place) (files : Files.Tree) : Except Fault Unit × Session :=
  (x.edit.run x.keeper).outcome (x.start files)

/-- Ledgers are made one from another by edits, one after another. -/
inductive Follows : List (Turn place) → Files.Tree → Ledger → Ledger → Prop
  | done (files : Files.Tree) (l : Ledger) : Follows [] files l l
  | next {x : Turn place} {xs : List (Turn place)} {files : Files.Tree} {l l' l'' : Ledger}
    (hturn : x.edit.Turns x.keeper l (x.start files) (x.outcome files).1 (x.outcome files).2 l')
    (hrest : Follows xs (x.outcome files).2.files l' l'') : Follows (x :: xs) files l l''

/-- The file at a place is the document of a ledger. -/
def StandsAt (l : Ledger) (place : Files.Place) (files : Files.Tree) : Prop :=
  (files.fileAt? place).map Prod.fst = l.text?.map String.toUTF8

theorem Turn.sees (x : Turn place) (h : l.StandsAt place files) : x.keeper.Sees l (x.start files) where
  document := by
    rw [Store.held?]
    exact x.site_eq.symm ▸ h
  undisturbed := x.site_eq.symm ▸ x.undisturbed

def exampleSettings : Settings where
  workDirectory := ⟨1, ["srv"]⟩

def exampleStore : Store where
  path := exampleSettings.documentPath
  backupDirectory := exampleSettings.backupPath
  named := by decide +kernel

def exampleKeeper : Keeper where
  settings := exampleSettings
  store := exampleStore
  terraform := .of exampleSettings.workDirectory exampleSettings.terraformBinary
  client := ⟨exampleSettings.region, none, Keeper.retryPolicy exampleSettings⟩
  agreed := exampleStore.of_eq_ok

/-- An instance as the provider describes it. -/
def exampleDescription : Value :=
  .object [
    ("ImageId", .text "ami-2"), ("InstanceType", .text "t3.micro"),
    ("SubnetId", .text "subnet-1"), ("VpcId", .text "vpc-1"),
    ("Tags", .list [.object [("Key", .text "Name"), ("Value", .text "web-1")]])]

/-- The record of the instance that is described. -/
def exampleRecord : InstanceRecord where
  name := "web-1"
  image := "ami-2"
  instanceClass := "t3.micro"
  network := { subnetId := "subnet-1", vpcId := "vpc-1" }
  rootVolume := { encrypted := false }
  metadataPolicy := { tokensRequired := false, hopLimit := 1, tagsExposed := false }

/-- What the operator answers when a new instance is asked for; its key is that of the instance that
is described. -/
def exampleAnswers : List String :=
  ["web 1", "t3.micro", "vpc-1", "subnet-1", "", "4", "ami-1"] ++ List.replicate 12 "" ++ ["y"]

def exampleSession : Session where
  files := .empty
  directory := exampleSettings.workDirectory
  home := ⟨1, ["root"]⟩
  moment := ⟨2024, 1, 1, 12, 0, 0⟩
  processId := "1"
  provider := ⟨[(("DescribeInstances", false),
    [{ pages := [.object [("Reservations",
      .list [.object [("Instances", .list [exampleDescription])]])]] }])]⟩
  answers := exampleAnswers.map fun text => { reply := .given text }

theorem exampleSession_idle : exampleSession.Idle := by
  intro a ha
  obtain ⟨text, -, rfl⟩ := List.mem_map.1 ha
  rfl

/-- A console that takes every slash for the end of a mark. -/
def exampleMarkup : Console.Markup where
  line text := if '/' ∈ text.toList then none else some text
  cell text := if '/' ∈ text.toList then none else some text
  line_isSome _ h := by rw [if_neg h]; rfl

/-- No instance is created whose name the console refuses to show. -/
example :
    ((Edit.create.run exampleKeeper).outcome { exampleSession with
      markup := exampleMarkup
      answers := ("web [/prod]" :: exampleAnswers.tail).map fun text => { reply := .given text }
    }).1 = .error .unmatchedMark := by
  decide +kernel

end Ledger
end InstanceInventory
