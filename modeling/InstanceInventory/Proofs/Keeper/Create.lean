import InstanceInventory.Keeper.Create
import InstanceInventory.Proofs.Keeper.Outcomes

/-! # Creating an instance in a ledger

* `Keeper.Sees.gather_meets`: what is asked for is a record that passes validation, unless its key is
  taken.
* `Keeper.Faces.add_meets`: the record is put at the end of the ledger, unless its key is taken.
* `Keeper.Sees.create_turns`: what creating an instance makes of the ledger.
-/

namespace InstanceInventory
set_option autoImplicit false
open InstanceInventory.Action (Frame Keeps Meets Gives keeps_bind meets_bind meets_pure still_then
  still_last)
open Session (Did Still Calm)
variable {k : Keeper} {l : Ledger} {r : InstanceRecord} {s : Session}

/-- A draft that is collected is that of a record, but for an image that stays as it was given. -/
theorem Prompt.collectRecord_meets (settings : Settings) (client : Cloud.Client) (name : String)
    (s : Session) :
    (collectRecord settings client name).Meets s
      (fun d _ => ∃ (r : InstanceRecord) (image : Value), r.name = name ∧
        r.image = image.display ∧ d = { r.draft with image })
      fun _ _ => True := by
  unfold collectRecord
  repeat refine (Action.meets_true _ _).bind fun _ _ _ => ?_
  exact (Action.meets_pure _).2 ⟨_, _, rfl, rfl, rfl⟩

namespace Keeper

/-! ## Asking for an instance -/

/-- What the document holds is told, unless the files do not show whether it is there or the console
refuses to tell. -/
theorem introduceCreation_tells (k : Keeper) {text : String} {rs : List InstanceRecord}
    (h : Document.Holds text rs) (s : Session) :
    (k.introduceCreation text).alone.Meets s (fun _ => Still s)
      fun f s' => Still s s' ∧ (f.IsMild ∨ k.store.Denies s' f) := by
  unfold introduceCreation
  simp only [Process.alone_bind, Process.alone_lift, Process.alone_ite]
  refine meets_bind.2 (Action.meets_read.2
    ⟨fun present _ => ?_, fun e he => ⟨.refl ∅ s, .inr (.unseen he)⟩⟩)
  refine (?_ : Keeps Still Fault.IsMild _).meets (fun _ _ => id) fun _ _ ht hf => ⟨ht, .inl hf⟩
  split
  · exact keeps_bind (Action.keeps_status _) fun _ => keeps_bind (Action.keeps_say _) fun _ =>
      (Document.keysOf_gives h).bind_keeps fun keys _ => keeps_showKeys keys _
  · exact Action.keeps_status _

/-- A key that is taken is refused with the name of its record. -/
theorem Faces.refuseDuplicate_meets {α : Type} {text key : String} {rs : List InstanceRecord}
    (h : k.Faces l s) (hl : l.Sound) (hholds : Document.Holds text rs)
    (hrs : ∀ r ∈ rs, r ∈ l.records) (hkey : (rs.map InstanceRecord.key).contains key = true)
    {ok : α → Session → Prop} :
    (refuseDuplicate text key : Action α).Meets s ok fun f s' =>
      k.Faces l s' ∧ l.Refuses key f := by
  obtain ⟨r, hr, rfl⟩ := List.mem_map.1 (List.contains_iff_mem.1 hkey)
  refine (existingName_gives hholds hr (hl.clear r (hrs r hr))).bind_meets fun _ s' hs' hname => ?_
  subst hname
  exact (Action.meets_report _).2 ⟨h.of_still hs', r, hrs r hr, rfl, rfl⟩

/-- What is asked for is a record that passes validation, unless its key is taken. -/
theorem Sees.gather_meets (h : k.Sees l s) (hl : l.Sound) :
    k.gather.alone.Meets s
      (fun
        | none => fun s' => k.Sees l s' ∧ s'.progress.cancelled = true
        | some p => fun s' => k.Faces l s' ∧
            ∃ r : InstanceRecord, p = (r.draft, r.key) ∧ r.draft.validate = .ok ())
      fun f s' => k.Faces l s' ∧ (f.IsMild ∨ k.store.Denies s' f ∨ ∃ key, l.Refuses key f) := by
  unfold gather Action.begin
  simp only [Process.alone_bind, Process.alone_lift, Process.alone_ite, Process.alone_pure]
  rw [meets_bind, Action.meets_modify]
  have hbegun : k.Faces l s.begun := ⟨⟨h.document, h.undisturbed⟩, rfl⟩
  refine still_then (Action.keeps_displayAll _) fun _ s₁ h₁ => ?_
  refine ((hbegun.of_still h₁).readText_holds hl).imp_bad
    (fun f _ hf => ⟨hf.1, .inr (.inl hf.2)⟩) |>.bind fun text s₂ ⟨h₂, rs, hholds, hrs⟩ => ?_
  refine (Document.demandMap_gives hholds).bind_meets fun _ s₃ h₃ _ => ?_
  refine (k.introduceCreation_tells hholds s₃).imp_bad
    (fun f t ht => ⟨(h₂.of_still h₃).of_still ht.1, ht.2.imp_right .inl⟩) |>.bind fun _ s₄ h₄ => ?_
  have hname : Prompt.name.Keeps Calm Fault.IsMild := Prompt.keeps_name
  have hintroduced := (h₂.of_still h₃).of_still h₄
  refine hname.bind_meets (fun f t ht hf => ⟨hintroduced.of_calm ht, .inl hf⟩) fun name s₅ h₅ => ?_
  refine still_then (Action.keeps_status _) fun _ s₆ h₆ =>
    (Document.keysOf_gives hholds).bind_meets fun keys s₇ h₇ hkeys => ?_
  have hnamed := ((hintroduced.of_calm h₅).of_still h₆).of_still h₇
  subst hkeys
  split
  · next hkey =>
    exact (hnamed.refuseDuplicate_meets hl hholds hrs hkey).imp_bad fun f t hf =>
      ⟨hf.1, .inr (.inr ⟨_, hf.2⟩)⟩
  · have hcollect : (Prompt.collectRecord k.settings k.client name).Keeps Calm Fault.IsMild :=
      Prompt.keeps_collectRecord _ _ _
    refine ((hcollect s₇).and (Prompt.collectRecord_meets _ _ name s₇)).imp_bad
      (fun f t hf => ⟨hnamed.of_calm hf.1.1, .inl hf.1.2⟩) |>.bind
      fun d s₈ ⟨h₈, r, image, hr, himage, hd⟩ => ?_
    have hcollected := hnamed.of_calm h₈
    have hvalidate : (Action.ofExcept d.validate).Keeps Still Fault.IsMild := d.keeps_validate
    have hpassed : (Action.ofExcept d.validate).Meets s₈ (fun _ _ => d.validate = .ok ())
        fun _ _ => True := Action.meets_ofExcept.2 ⟨fun _ h => h, fun _ _ => trivial⟩
    refine ((hvalidate s₈).and hpassed).imp_bad
      (fun f t hf => ⟨hcollected.of_still hf.1.1, .inl hf.1.2⟩) |>.bind
      fun _ s₉ ⟨h₉, hvalid⟩ => ?_
    subst hd
    have hd := InstanceRecord.draft_of_validate hvalid himage
    rw [hd] at hvalid ⊢
    have hsummary : (Prompt.showSummary r.draft "Configuration Summary").Keeps Still
        Fault.IsMild := Prompt.keeps_showSummary _ _
    have hconfirm : (Prompt.confirm ("Add this instance to " ++ k.documentName ++ "?") false).Keeps
        Calm Fault.IsMild := Prompt.keeps_confirm _ _
    have hchecked := hcollected.of_still h₉
    refine hsummary.bind_meets (fun f t ht hf => ⟨hchecked.of_still ht, .inl hf⟩) fun _ s₁₀ h₁₀ =>
      hconfirm.bind_meets (fun f t ht hf => ⟨(hchecked.of_still h₁₀).of_calm ht, .inl hf⟩)
        fun confirmed s₁₁ h₁₁ => ?_
    have hconfirmed := (hchecked.of_still h₁₀).of_calm h₁₁
    split
    · refine (meets_pure _).2 ⟨hconfirmed, r, ?_, hvalid⟩
      rw [← hr]
      rfl
    · exact (hconfirmed.cancel_meets _).bind fun _ t ht => (meets_pure _).2 ht

/-! ## Adding an instance -/

/-- A record with a key that is not there is put at the end of the ledger. -/
theorem Faces.addTo_meets (h : k.Faces l s) (hl : l.Sound) (hr : r.TagsClear)
    (hfresh : r.key ∉ l.keys) :
    (k.addTo l.text r.draft r.key l.keys).alone.Meets s
      (fun _ => k.Faces (l.put (documentOptions k.settings) r))
      fun f s' => k.Faces l s' ∧ k.store.Denies s' f := by
  have hkeys : l.keys.filter (· != r.key) = l.keys := by
    rw [← Ledger.map_key_others, Ledger.others_eq_self hfresh]
    rfl
  unfold addTo
  simp only [Process.alone_bind, Process.alone_lift]
  refine h.backup_meets.bind fun _ s₁ ⟨h₁, _⟩ =>
    (Document.blocksWithout_gives hl.holds none).bind_meets fun blocks s₂ h₂ hblocks => ?_
  have hall : (l.records.filter fun r => none != some r.key) = l.others r.key := by
    rw [Ledger.others_eq_self hfresh]
    exact List.filter_eq_self.2 fun _ _ => rfl
  rw [hall] at hblocks
  subst hblocks
  have hwrite := (h₁.of_still h₂).writePut_meets hl hr
  rw [hkeys] at hwrite
  exact meets_bind.2 ((Action.meets_pure _).2 hwrite)

theorem Faces.add_meets (h : k.Faces l s) (hl : l.Sound) (hreaches : k.store.Reaches s)
    (hr : r.TagsClear) :
    (k.add r.draft r.key).alone.Meets s
      (fun keys s' => keys = some l.keys ∧ r.key ∉ l.keys ∧
        k.Faces (l.put (documentOptions k.settings) r) s')
      fun f s' => k.Faces l s' ∧ (k.store.Denies s' f ∨ l.Refuses r.key f) := by
  unfold add
  simp only [Process.alone_bind, Process.alone_lift, Process.alone_ite]
  refine (h.readText_meets hl hreaches).imp_bad (fun f _ hf => ⟨hf.1, .inl hf.2⟩)
    |>.bind fun text s₂ ⟨htext, h₂, _⟩ => ?_
  subst htext
  refine (Document.keysOf_gives hl.holds).bind_meets fun keys s₃ h₃ hkeys => ?_
  subst hkeys
  split
  · next hkey =>
    exact ((h₂.of_still h₃).refuseDuplicate_meets hl hl.holds (fun _ => id) hkey).imp_bad
      fun _ _ hf => ⟨hf.1, .inr hf.2⟩
  · next hkey =>
    refine (k.accepts_gives hl.holds false).bind_meets fun _ s₄ h₄ haccepts => ?_
    subst haccepts
    have hfresh : r.key ∉ l.keys := fun hmem => hkey (List.contains_iff_mem.2 hmem)
    refine (((h₂.of_still h₃).of_still h₄).addTo_meets hl hr hfresh).imp_bad
      (fun _ _ hf => ⟨hf.1, .inl hf.2⟩) |>.bind fun _ s₅ h₅ => ?_
    exact (Action.meets_pure _).2 ⟨rfl, hfresh, h₅⟩

end Keeper
end InstanceInventory
