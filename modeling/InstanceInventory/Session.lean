import InstanceInventory.Cloud.Request
import InstanceInventory.Console
import InstanceInventory.Files.Tree
import InstanceInventory.Number.Basic
import InstanceInventory.Terraform.Command

/-! # Sessions

* `Session`: the surroundings in which the inventory is worked on, and what was done in them.
* `Moment`, `Answer`, `Call`, `Deed`, `Progress`: the parts of a session.
-/

namespace InstanceInventory
set_option autoImplicit false
open Console (Item Reply)

/-- A moment of the local clock. -/
structure Moment where
  year : Nat
  month : Nat
  day : Nat
  hour : Nat
  minute : Nat
  second : Nat
  deriving DecidableEq, Repr

def twoDigits (n : Nat) : String :=
  if n < 10 then "0" ++ countText n else countText n

/-- The stamp of a moment: the digits of its date, an underscore and the digits of its time. -/
def Moment.stamp (m : Moment) : String :=
  countText m.year ++ twoDigits m.month ++ twoDigits m.day ++ "_" ++
    twoDigits m.hour ++ twoDigits m.minute ++ twoDigits m.second

/-- What the operator will reply to a question, and what others do to the files meanwhile. -/
structure Answer where
  reply : Reply
  meanwhile : Files.Tree → Files.Tree := id

/-- A call to the world outside. -/
inductive Call where
  | connect (profile : Option String) (region : String)
  | request (r : Cloud.Request)
  | run (words : List String) (directory : Files.Path)

/-- What was done with the document or by Terraform. -/
inductive Deed where
  /-- Terraform was given a command, and the run ended. -/
  | ran (c : Terraform.Command) (o : Terraform.Outcome)
  /-- The text of the document was read; it is empty where there is no document. -/
  | read (text : String)
  /-- The document was copied to a path. -/
  | kept (copy : Files.Path)
  /-- A text was put in place of the document. -/
  | wrote (text : String)
  deriving DecidableEq

/-- How a step of an operation went. -/
structure Step where
  succeeded : Bool
  details : String
  deriving DecidableEq, Repr

/-- How the last operation went: its steps by their names, and whether it was cancelled. -/
structure Progress where
  steps : List (String × Step) := []
  cancelled : Bool := false
  deriving DecidableEq, Repr, Inhabited

/-- The surroundings in which the inventory is worked on, and what was done in them. -/
structure Session where
  files : Files.Tree
  /-- The directory in which the program was started. -/
  directory : Files.Path
  home : Files.Path
  moment : Moment
  processId : String
  /-- Whether another process holds the lock on the document. -/
  isLockedElsewhere : Bool := false
  /-- Whether this process holds the lock on the document. -/
  holdsLock : Bool := false
  provider : Cloud.Script := .empty
  missingProfiles : List String := []
  provisioner : Terraform.Script := .empty
  answers : List Answer := []
  /-- How the operator's console reads marks. -/
  markup : Console.Markup := .none
  /-- Whether notes are shown. -/
  debug : Bool := false
  progress : Progress := {}
  /-- What was shown, the last item first. -/
  shown : List Item := []
  /-- The calls made, the last one first. -/
  made : List Call := []
  /-- What was done with the document and by Terraform, the last deed first. -/
  deeds : List Deed := []
  /-- How long it was waited, the last time first. -/
  waited : List Number := []

namespace Session

def log (s : Session) : List Item :=
  s.shown.reverse

def calls (s : Session) : List Call :=
  s.made.reverse

def waits (s : Session) : List Number :=
  s.waited.reverse

/-- The path from the root that a path stands for. -/
def locate (s : Session) (p : Files.Path) : Files.Path :=
  s.directory.join p

end Session

end InstanceInventory
