import InstanceInventory.Proofs.Keeper.Edit
import InstanceInventory.Proofs.Keeper.Ledger

/-! # What edits make of a ledger

* `Edit.Makes`: the ways in which an edit may end, each with the ledger that comes of it.
* `Edit.Turns`: an edit ends in one of these ways, and the document is that of the ledger after it.
-/

namespace InstanceInventory
set_option autoImplicit false
open InstanceInventory.Action (Meets)

namespace Edit
variable {k : Keeper} {l : Ledger} {s s' : Session} {id key : String} {assumeYes forget : Bool}
  {f : Fault}

/-- What an edit that starts in a session makes of a ledger, by what the edit comes to. -/
inductive Makes (k : Keeper) (l : Ledger) (s : Session) :
    Edit → Except Fault Unit → Session → Ledger → Prop
  /-- The record that was asked for is put last. -/
  | created {s' : Session} (r : InstanceRecord)
    (hplan : (k.gather.alone.outcome s).1 = .ok (some (r.draft, r.key)))
    (hfresh : r.key ∉ l.keys) :
    Makes k l s .create (.ok ()) s' ⟨l.records ++ [r], some (Keeper.documentOptions k.settings)⟩
  /-- The operator gives up before there is a record. -/
  | gaveUp {s' : Session} (hplan : (k.gather.alone.outcome s).1 = .ok none)
    (hcancelled : s'.progress.cancelled = true) : Makes k l s .create (.ok ()) s' l
  /-- There is no record, the files do not show the document, or the key is taken. -/
  | notGathered {s' : Session} {f : Fault} (hplan : (k.gather.alone.outcome s).1 = .error f)
    (hf : f.IsMild ∨ k.store.Denies s' f ∨ ∃ key, l.Refuses key f) :
    Makes k l s .create (.error f) s' l
  /-- The files refuse a step, the lock is not to be had, or the key is taken. -/
  | notCreated {s' : Session} {f : Fault} (r : InstanceRecord)
    (hplan : (k.gather.alone.outcome s).1 = .ok (some (r.draft, r.key)))
    (hf : k.store.Bars s' f ∨ l.Refuses r.key f) : Makes k l s .create (.error f) s' l
  /-- The record of the instance is put last, in place of the one with its key. -/
  | imported {s' : Session} {id : String} {assumeYes : Bool} (r : InstanceRecord)
    (hplan : ((k.fetch id).outcome s).1 = .ok (r.draft, r.key)) :
    Makes k l s (.importInstance id assumeYes) (.ok ()) s'
      (l.put (Keeper.documentOptions k.settings) r)
  /-- The same, where a run of Terraform fails after that, or the files refuse a step. -/
  | importedInPart {s' : Session} {f : Fault} {id : String} {assumeYes : Bool} (r : InstanceRecord)
    (hplan : ((k.fetch id).outcome s).1 = .ok (r.draft, r.key)) (hlate : k.StopsLate s' f) :
    Makes k l s (.importInstance id assumeYes) (.error f) s'
      (l.put (Keeper.documentOptions k.settings) r)
  /-- The operator keeps the record that is there. -/
  | keptOld {s' : Session} {id : String} (r : InstanceRecord)
    (hplan : ((k.fetch id).outcome s).1 = .ok (r.draft, r.key)) (htaken : r.key ∈ l.keys)
    (hcancelled : s'.progress.cancelled = true) :
    Makes k l s (.importInstance id false) (.ok ()) s' l
  /-- There is no record of the instance. -/
  | notFetched {s' : Session} {f : Fault} {id : String} {assumeYes : Bool}
    (hplan : ((k.fetch id).outcome s).1 = .error f) (hf : f.IsMild) :
    Makes k l s (.importInstance id assumeYes) (.error f) s' l
  /-- The files refuse a step, the lock is not to be had, the console refuses to show the record that
  is there, or the operator does not tell whether to replace it. -/
  | notImported {s' : Session} {f : Fault} {id : String} {assumeYes : Bool} (r : InstanceRecord)
    (hplan : ((k.fetch id).outcome s).1 = .ok (r.draft, r.key))
    (hf : k.store.Bars s' f ∨ r.key ∈ l.keys ∧ (f.IsOfConsole ∨ f.IsMild ∧ assumeYes = false)) :
    Makes k l s (.importInstance id assumeYes) (.error f) s' l
  /-- The record of the key is taken out, and Terraform agrees to the rest. -/
  | removed {s' : Session} {key : String} {forget : Bool} (hkey : key ∈ l.keys)
    (htested : Keeper.Tested (l.drop (Keeper.documentOptions k.settings) key) s') :
    Makes k l s (.remove key forget) (.ok ()) s' (l.drop (Keeper.documentOptions k.settings) key)
  /-- The same, where the instance cannot be taken out of the state of Terraform after that. -/
  | removedInPart {s' : Session} {f : Fault} {key : String} (hkey : key ∈ l.keys)
    (htested : Keeper.Tested (l.drop (Keeper.documentOptions k.settings) key) s')
    (hf : f.IsTerraform) :
    Makes k l s (.remove key true) (.error f) s' (l.drop (Keeper.documentOptions k.settings) key)
  /-- The record of the key is taken out, and the files refuse a step after that. -/
  | leftUntested {s' : Session} {f : Fault} {key : String} {forget : Bool} (hkey : key ∈ l.keys)
    (hf : k.Denies s' f) :
    Makes k l s (.remove key forget) (.error f) s'
      (l.drop (Keeper.documentOptions k.settings) key)
  /-- Terraform does not agree to the rest. -/
  | takenBack {s' : Session} {key wording : String} {forget : Bool} (copy : Files.Path)
    (hkey : key ∈ l.keys) :
    Makes k l s (.remove key forget)
      (.error (.report (.postWrite wording (some copy.text) true))) s' l
  /-- There is no record of the key. -/
  | missing {s' : Session} {key : String} {forget : Bool} (hkey : key ∉ l.keys) :
    Makes k l s (.remove key forget) (.error (.report (.recordNotFound key l.keys))) s' l
  /-- No key is given, the files refuse a step, or the lock is not to be had. -/
  | notRemoved {s' : Session} {f : Fault} {key : String} {forget : Bool}
    (hf : key = "" ∧ f = .plain .usage "A resource name is required" ∨ k.store.Bars s' f) :
    Makes k l s (.remove key forget) (.error f) s' l

/-- An edit makes another ledger of a ledger, whose document stands after it. An operation that is
cancelled makes nothing of it. -/
structure Turns (k : Keeper) (l : Ledger) (s : Session) (e : Edit) (r : Except Fault Unit)
    (s' : Session) (l' : Ledger) : Prop where
  makes : e.Makes k l s r s' l'
  sound : l'.Sound
  sees : k.Sees l' s'
  cancelled : s'.progress.cancelled = true → l' = l

end Edit
end InstanceInventory
