import InstanceInventory.Keeper.Create
import InstanceInventory.Proofs.Keeper.Parts

/-! # Adding an instance to the document

* `Keeper.add_meets`: under the lock a draft is added to the document as it is then, unless the
  operator gives up or there is a fault.
-/

namespace InstanceInventory.Keeper
set_option autoImplicit false
open InstanceInventory.Action (Frame Keeps Meets meets_bind meets_pure)
open Session (Did Still Calm)
variable {k : Keeper} {s s' : Session} {text key : String} {d : Draft}

/-- A draft was added to the document under a key that it did not hold. -/
def Adds (k : Keeper) (d : Draft) (key : String) (keys : List String) (s s' : Session) : Prop :=
  ∃ w copy block, d.block Record.blockLevel = .ok block ∧ w.keys = keys ∧ key ∉ keys ∧
    w.Fits (documentOptions k.settings) { added := some (key, block) } ∧
    k.store.Rewritten s.disturbed w copy s s'

theorem refuseDuplicate_meets {α : Type} (text key : String) (s : Session)
    {ok : α → Session → Prop} :
    (refuseDuplicate text key : Action α).Meets s ok fun _ s' => Still s s' :=
  (keeps_existingName text key).bind_meets (fun _ _ h _ => h) fun _ _ h =>
    (Action.meets_report _).2 h

theorem addTo_meets {keys : List String} (h : k.store.Looked s.disturbed text s s')
    (hwhole : ¬ Document.Broken text) (hkeys : Document.keys text = .ok keys) (hfresh : key ∉ keys) :
    (k.addTo text d key keys).alone.Meets s' (fun _ => k.Adds d key keys s)
      fun f => k.store.Stopped s.disturbed f s := by
  unfold addTo
  simp only [Process.alone_bind, Process.alone_lift]
  refine (k.backup_meets s').imp_bad (fun f t ht => h.stopped hwhole ht.1) |>.bind
    fun copy t ht => ?_
  have hstop : ∀ {f u}, Still t u → k.store.Stopped s.disturbed f s u := fun hu =>
    .kept text copy s' h hwhole (ht.then_still hu)
  refine (Document.blocksWithout_meets text none t).imp_bad (fun f u hu => hstop hu.1) |>.bind
    fun blocks u ⟨hu, removed, hsplice⟩ => ?_
  refine (ofShape_meets (d.block Record.blockLevel) u).imp_bad (fun f v hv => hv ▸ hstop hu)
    |>.bind fun block v ⟨hv, hblock⟩ => ?_
  subst hv
  rw [← Change.keysAfter_added key block keys]
  refine (rewrite_meets (c := { added := some (key, block) }) h hwhole hkeys (ht.then_still hu)
    hsplice).imp (fun _ w hw => ?_) fun _ _ hf => hf.1
  obtain ⟨w, -, hheld, hfits, hrewritten⟩ := hw
  exact ⟨w, copy, block, hblock, hheld, hfresh, hfits, hrewritten⟩

/-- Under the lock a draft is added to the document as it is then, unless the operator gives up or
there is a fault. -/
theorem add_meets (k : Keeper) (d : Draft) (key : String) (s : Session) :
    (k.add d key).alone.Meets s
      (fun
        | none => k.store.Declined s
        | some keys => k.Adds d key keys s)
      fun f => k.store.Stopped s.disturbed f s := by
  unfold add
  simp only [Process.alone_bind, Process.alone_lift, Process.alone_ite]
  refine ((k.readText_meets s.disturbed s).imp_bad fun _ _ hf => hf.1).bind fun text s₁ h₁ => ?_
  refine ((k.keysOf_meets h₁).imp_bad fun _ _ hf => hf.1).bind fun keys s₂ ⟨h₂, hkeys⟩ => ?_
  split
  · next hmem =>
    have hwhole : ¬ Document.Broken text := by
      intro hbroken
      obtain rfl : [] = keys := Except.ok.inj (hbroken.keys.symm.trans hkeys)
      cases hmem
    exact (refuseDuplicate_meets text key s₂).imp_bad fun f t ht => h₂.stopped hwhole ht
  · next hfresh =>
    have hfresh : key ∉ keys := fun hmem => hfresh (List.contains_iff_mem.2 hmem)
    refine (k.accepts_meets text false s₂).imp_bad (fun f t ht => .looked text (h₂.then_calm ht.1)
      ht.2) |>.bind fun accepted s₃ ⟨h₃, hwhole⟩ => ?_
    have hlooked := h₂.then_calm h₃
    split
    · exact (hlooked.cancel_meets hwhole _).bind fun _ t ht => (meets_pure _).2 ht
    · exact (addTo_meets hlooked hwhole hkeys hfresh).bind fun _ t ht => (meets_pure _).2 ht

end InstanceInventory.Keeper
