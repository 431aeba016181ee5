import InstanceInventory.Proofs.Keeper.Create
import InstanceInventory.Proofs.Keeper.Import

/-! # What edits plan

* `Edit.IsSound`: a plan is a draft that passes validation, with the key that its name gives.
* `Edit.before_yields`: whatever others do meanwhile, an edit comes to such plans only.
-/

namespace InstanceInventory
set_option autoImplicit false
open InstanceInventory.Action (Meets)
open Process (yields_any_bind yields_bind yields_lift yields_map yields_pure)

namespace Keeper
variable {p : Draft × String}

/-- A draft that passes validation, with the key that its name gives. -/
def Plans (p : Draft × String) : Prop :=
  p.1.validate = .ok () ∧ p.1.key = .ok p.2

theorem gather_yields (k : Keeper) : k.gather.Yields fun plan => ∀ p, plan = some p → Plans p := by
  unfold gather
  refine yields_any_bind fun _ => yields_any_bind fun _ => yields_any_bind fun text =>
    yields_any_bind fun _ => yields_any_bind fun _ => yields_any_bind fun name =>
    yields_any_bind fun _ => yields_any_bind fun keys => ?_
  split
  · exact yields_lift fun s => (refuseDuplicate_meets text _ s).imp (fun _ _ => id) fun _ _ _ => trivial
  · refine yields_bind (yields_lift fun s => Prompt.collectRecord_meets k.settings k.client name s)
      fun d ⟨r, image, hr, himage, hd⟩ => ?_
    refine yields_bind (yields_lift (P := fun _ => d.validate = .ok ()) fun s =>
      Action.meets_ofExcept.2 ⟨fun _ h => h, fun _ _ => trivial⟩) fun _ hvalid => ?_
    refine yields_any_bind fun _ => yields_any_bind fun confirmed => ?_
    split
    · refine yields_pure ?_
      rintro _ ⟨⟩
      refine ⟨hvalid, ?_⟩
      subst hd
      rw [InstanceRecord.draft_of_validate hvalid himage, r.key_draft, ← hr]
      rfl
    · exact yields_any_bind fun _ => yields_pure nofun

theorem fetch_yields (k : Keeper) (id : String) :
    (liftM (k.fetch id) : Process (Draft × String)).Yields Plans :=
  yields_lift (k.fetch_valid id)

end Keeper

namespace Edit

/-- The plan of an edit that puts a record into the document is sound. -/
def IsSound (k : Keeper) : (e : Edit) → (e.operation k).Plan → Prop
  | create, p => Keeper.Plans p
  | importInstance .., p => Keeper.Plans p
  | remove .., _ => True

theorem before_yields (k : Keeper) (e : Edit) :
    (e.operation k).before.Yields fun plan => ∀ p, plan = some p → e.IsSound k p := by
  cases e with
  | create => exact k.gather_yields
  | importInstance id assumeYes =>
    refine yields_map (k.fetch_yields id) fun p hp => ?_
    rintro _ ⟨⟩
    exact hp
  | remove key forget => exact yields_map (Process.yields_true _) fun _ _ _ _ => trivial

end Edit
end InstanceInventory
