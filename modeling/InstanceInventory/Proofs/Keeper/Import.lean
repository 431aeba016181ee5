import InstanceInventory.Proofs.Keeper.Outcomes

/-! # Importing an instance into a ledger

* `Keeper.Faces.place_meets`: the record takes its place at the end of the ledger, also where a run of
  Terraform fails after that.
* `Keeper.Sees.import_turns`: what importing an instance makes of the ledger.
-/

namespace InstanceInventory
set_option autoImplicit false
open InstanceInventory.Action (Frame Keeps Meets keeps_bind keeps_pure meets_bind meets_pure
  still_then still_last)
open Session (Did Still Calm Ran)
variable {k : Keeper} {l : Ledger} {r : InstanceRecord} {s s' : Session} {id : String}

/-! ## Showing a record -/

theorem Value.exists_ofText?_orElse (t : Option String) (other : String) :
    ∃ text, (Value.ofText? t).orElse (.text other) = .text text := by
  unfold Value.orElse
  split
  · cases t with
    | none => exact ⟨other, by simp_all [Value.ofText?, Value.isTruthy]⟩
    | some t => exact ⟨t, rfl⟩
  · exact ⟨other, rfl⟩

/-- There is a text to say about each part of a record. -/
theorem InstanceRecord.summary_draft (r : InstanceRecord) :
    ∃ rows, r.draft.summary = .ok rows ∧ ∀ row ∈ rows, ∃ text, row.2 = .text text := by
  have hgroups : r.draft.groupTexts = .ok r.network.securityGroupIds := by
    rw [Draft.groupTexts, InstanceRecord.draft, List.mapM_map]
    refine (List.mapM_pure (f := id)).trans (congrArg _ (List.map_id _))
  rw [Draft.summary, r.key_draft, hgroups]
  refine ⟨_, rfl, ?_⟩
  simp only [List.mem_append, List.mem_cons, List.mem_map, List.not_mem_nil, or_false]
  rintro row ((h | ⟨v, -, rfl⟩) | h)
  · obtain rfl | rfl | rfl | rfl | rfl | rfl | rfl | rfl | rfl | rfl | rfl := h
    all_goals first | exact ⟨_, rfl⟩ | exact Value.exists_ofText?_orElse _ _ |
      exact Value.exists_ofText?_orElse (some _) _
  · exact ⟨_, rfl⟩
  · obtain rfl | rfl := h
    · exact ⟨_, rfl⟩
    · exact ⟨_, rfl⟩

/-- Only the console can refuse to show a record. -/
theorem Prompt.keeps_showSummary_draft (r : InstanceRecord) (title : String) :
    (showSummary r.draft title).Keeps Still Fault.IsOfConsole := by
  obtain ⟨rows, hrows, htexts⟩ := r.summary_draft
  unfold showSummary
  rw [hrows]
  refine (Action.gives_mapM fun row hrow => ?_).bind_keeps fun cells _ =>
    Action.keeps_draw_console _
  obtain ⟨text, htext⟩ := htexts row hrow
  rw [htext]
  exact Action.gives_pure trivial

namespace Keeper

theorem Faces.of_ran (h : k.Faces l s) (hs : Ran s s') : k.Faces l s' := by
  obtain ⟨_, hs⟩ := hs
  exact h.of_still hs

/-! ## Before the lock is taken -/

/-- The provider describes an instance by the fields of a record. -/
def Describes (k : Keeper) (id : String) (s : Session) : Prop :=
  (k.fetch id).Meets s (fun p _ => ∃ r : InstanceRecord, p.1 = r.draft) fun _ _ => True

/-- What is fetched has passed validation. -/
theorem fetch_valid (k : Keeper) (id : String) (s : Session) :
    (k.fetch id).Meets s (fun p _ => p.1.validate = .ok () ∧ p.1.key = .ok p.2)
      fun _ _ => True := by
  have hdraft : ∀ s, (k.fetchDraft id).Meets s (fun d _ => d.validate = .ok ()) fun _ _ => True := by
    intro s
    unfold fetchDraft
    iterate 4 refine (Action.meets_true _ _).bind fun _ _ _ => ?_
    exact meets_bind.2 (Action.meets_ofExcept.2
      ⟨fun _ hvalid => (meets_pure _).2 hvalid, fun _ _ => trivial⟩)
  unfold fetch
  refine (Action.meets_true _ _).bind fun _ s₁ _ => ?_
  dsimp only
  split
  · exact meets_bind.2 ((Action.meets_fail _ _).2 trivial)
  iterate 3 refine (Action.meets_true _ _).bind fun _ _ _ => ?_
  refine (hdraft _).bind fun d s' hd => (ofShape_meets d.key s').imp_bad (fun _ _ _ => trivial)
    |>.bind fun key t ⟨_, hkey⟩ => ?_
  iterate 2 refine (Action.meets_true _ _).bind fun _ _ _ => ?_
  exact (meets_pure _).2 ⟨hd, hkey⟩

/-! ## Under the lock -/

/-- The record takes its place at the end of the ledger. -/
theorem Faces.putIn_meets (h : k.Faces l s) (hl : l.Sound) (hr : r.TagsClear) :
    (k.putIn l.text r.draft r.key id l.keys).alone.Meets s
      (fun _ => k.Faces (l.put (documentOptions k.settings) r))
      fun f s' => k.Faces l s' ∧ k.store.Denies s' f ∨
        k.Faces (l.put (documentOptions k.settings) r) s' ∧ k.StopsLate s' f := by
  unfold putIn
  simp only [Process.alone_bind, Process.alone_lift]
  refine still_then (Action.keeps_status _) fun _ s₁ h₁ => ?_
  refine ((h.of_still h₁).backup_meets.imp_bad fun _ _ => .inl).bind
    fun copy s₂ ⟨h₂, _⟩ => ?_
  refine (Document.blocksWithout_gives hl.holds (some r.key)).bind_meets fun blocks s₃ h₃ hblocks => ?_
  rw [Ledger.filter_records] at hblocks
  subst hblocks
  refine meets_bind.2 ((meets_pure _).2 ?_)
  refine (((h₂.of_still h₃).writePut_meets hl hr).imp_bad fun _ _ => .inl).bind fun _ s₄ h₄ => ?_
  refine still_then (Action.keeps_success _) fun _ s₅ h₅ =>
    still_then (Action.keeps_step _ _ _) fun _ s₆ h₆ =>
      still_then (Action.keeps_status _) fun _ s₇ h₇ => ?_
  have h₇ := ((h₄.of_still h₅).of_still h₆).of_still h₇
  have hcheck : (k.checkImport copy).Meets s₇ (fun _ s' => Ran s₇ s')
      fun f s' => Ran s₇ s' ∧ k.StopsLate s' f := k.checkImport_stops copy s₇
  refine (hcheck.imp_bad fun f t ht => .inr ⟨h₇.of_ran ht.1, ht.2⟩).bind fun _ s₈ h₈ => ?_
  have h₈ := h₇.of_ran h₈
  refine (k.keeps_importState _ id).bind_meets (fun f t ht hf => .inr ⟨h₈.of_ran ht, .inl hf⟩)
    fun _ s₉ h₉ => still_then (Action.keeps_status _) fun _ t ht => ?_
  have ht := (h₈.of_ran h₉).of_still ht
  have hplan : (k.terraform.run .plan).Keeps Ran Fault.IsTerraform := k.terraform.keeps_run _
  refine hplan.bind_meets (fun f u hu hf => .inr ⟨ht.of_ran hu, .inl hf⟩) fun out u hu => ?_
  exact still_then (Action.keeps_say _) fun _ v hv => still_last (Action.keeps_step _ _ _)
    fun _ x hx => ((ht.of_ran hu).of_still hv).of_still hx

/-- Only the console can refuse to show the record of a key that is taken. -/
theorem keeps_showReplaced_key {key : String} (hl : l.Sound) (hkey : key ∈ l.keys) :
    (showReplaced l.text key).Keeps Still Fault.IsOfConsole := by
  obtain ⟨r, hr, rfl⟩ := Ledger.mem_keys.1 hkey
  unfold showReplaced
  refine (Document.blockOf_gives hl.holds hr).bind_keeps fun block hblock => ?_
  subst hblock
  refine (Document.read_gives (hl.clear r hr)).bind_keeps fun read hread => ?_
  subst hread
  exact Prompt.keeps_showSummary_draft r _

/-- The operator is asked about a key that is taken, and about nothing else. -/
def AsksToReplace (l : Ledger) (key : String) (assumeYes : Bool) : Prop :=
  key ∈ l.keys ∧ assumeYes = false

/-- A fault of showing the record of a key that is taken, or of asking whether to replace it. -/
def StopsReplacing (l : Ledger) (key : String) (assumeYes : Bool) (f : Fault) : Prop :=
  key ∈ l.keys ∧ (f.IsOfConsole ∨ f.IsMild ∧ assumeYes = false)

/-- What stands under the key is shown, and a document of records may be written anew. -/
theorem Faces.acceptsImport_meets (h : k.Faces l s) (hl : l.Sound) (key : String) (assumeYes : Bool) :
    (k.acceptsImport l.text key l.keys assumeYes).Meets s
      (fun accepted s' => k.Faces l s' ∧ (accepted = false → AsksToReplace l key assumeYes))
      fun f s' => k.Faces l s' ∧ StopsReplacing l key assumeYes f := by
  have haccepts : ∀ t, k.Faces l t → (k.accepts l.text assumeYes).Meets t
      (fun accepted s' => k.Faces l s' ∧ (accepted = false → AsksToReplace l key assumeYes))
      fun f s' => k.Faces l s' ∧ StopsReplacing l key assumeYes f := fun t ht =>
    ((k.accepts_gives hl.holds assumeYes) t).imp
      (fun _ _ hu => ⟨ht.of_still hu.1, fun hno => absurd (hu.2.symm.trans hno) nofun⟩)
      fun _ _ hf => hf.elim
  unfold acceptsImport
  split
  · next hmem =>
    have hkey := List.contains_iff_mem.1 hmem
    have hconfirm : (Prompt.confirm ("Instance '" ++ key ++ "' already exists. Overwrite?")
        false).Keeps Calm Fault.IsMild := Prompt.keeps_confirm _ _
    refine (keeps_showReplaced_key hl hkey).bind_meets
      (fun f t ht hf => ⟨h.of_still ht, hkey, .inl hf⟩) fun _ t ht => ?_
    have hshown := h.of_still ht
    split
    · next hasks =>
      have hasks : AsksToReplace l key assumeYes := ⟨hkey, by simpa using hasks⟩
      refine hconfirm.bind_meets
        (fun f u hu hf => ⟨hshown.of_calm hu, hkey, .inr ⟨hf, hasks.2⟩⟩)
        fun confirmed u hu => ?_
      split
      · exact (meets_pure _).2 ⟨hshown.of_calm hu, fun _ => hasks⟩
      · exact haccepts u (hshown.of_calm hu)
    · exact haccepts t hshown
  · exact haccepts s h

theorem Faces.place_meets (h : k.Faces l s) (hl : l.Sound) (hreaches : k.store.Reaches s)
    (hr : r.TagsClear) (assumeYes : Bool) :
    (k.place r.draft r.key id assumeYes).alone.Meets s
      (fun
        | false => fun s' => k.Sees l s' ∧ s'.progress.cancelled = true ∧
            AsksToReplace l r.key assumeYes
        | true => k.Faces (l.put (documentOptions k.settings) r))
      fun f s' => k.Faces l s' ∧ (k.store.Denies s' f ∨ StopsReplacing l r.key assumeYes f) ∨
        k.Faces (l.put (documentOptions k.settings) r) s' ∧ k.StopsLate s' f := by
  unfold place
  simp only [Process.alone_bind, Process.alone_lift, Process.alone_ite]
  refine (h.readText_meets hl hreaches).imp_bad (fun f _ hf => .inl ⟨hf.1, .inl hf.2⟩)
    |>.bind fun text s₂ ⟨htext, h₂, _⟩ => ?_
  subst htext
  refine (Document.keysOf_gives hl.holds).bind_meets fun keys s₃ h₃ hkeys => ?_
  subst hkeys
  refine ((h₂.of_still h₃).acceptsImport_meets hl r.key assumeYes).imp_bad
    (fun _ _ hf => .inl ⟨hf.1, .inr hf.2⟩) |>.bind fun accepted s₄ ⟨h₄, hasks⟩ => ?_
  split
  · next hno =>
    exact (h₄.cancel_meets _).bind fun _ t ht =>
      (meets_pure _).2 ⟨ht.1, ht.2, hasks (by simpa using hno)⟩
  · refine ((h₄.putIn_meets hl hr).imp_bad fun f _ hf =>
      hf.imp_left fun hf => ⟨hf.1, .inl hf.2⟩).bind fun _ t ht => (meets_pure _).2 ht

end Keeper
end InstanceInventory
