import InstanceInventory.Keeper.Create
import InstanceInventory.Keeper.Import
import InstanceInventory.Keeper.Remove
import InstanceInventory.Proofs.Action.Outside
import InstanceInventory.Proofs.Process
import InstanceInventory.Proofs.Store

/-! # The parts of an edit in any frame

* `Keeper.Denies`, `Keeper.StopsCheck`, `Keeper.StopsLate`: where the files refuse a step of an edit,
  and the faults that end a check of the document, and an edit once the document was written.
* `Keeper.keeps_accepts` and the like: what only looks, asks and tells keeps every relation that looks,
  questions and the screen do not matter for.
* `Keeper.keeps_checkDocument` and the like: what runs Terraform keeps every relation that its runs do
  not matter for.
* `Keeper.meets_onTerraformFailure`: only the failures of Terraform are handled.
-/

namespace InstanceInventory
set_option autoImplicit false
open InstanceInventory.Action (Frame Keeps Meets keeps_bind keeps_pure)

namespace Fault

/-- Whether a fault reports what became of a document that was written already. -/
def IsPostWrite : Fault → Prop
  | .report (.postWrite ..) => True
  | _ => False

end Fault

namespace Keeper
variable {α : Type} {rel : Session → Session → Prop} {kind : Fault → Prop} {k : Keeper}
  {s : Session} {f : Fault}

/-! ## Faults of the surroundings -/

/-- The files refuse a step of an edit, or do not tell whether Terraform was made ready. -/
def Denies (k : Keeper) (s : Session) (f : Fault) : Prop :=
  k.store.Denies s f ∨ ∃ e, f = .file e ∧
    s.files.isDirectory (s.locate (k.terraform.directory.child initializedMark)) = .error e

/-- A fault with which a check of the document ends early. -/
def StopsCheck (k : Keeper) (s : Session) (f : Fault) : Prop :=
  f.IsTerraform ∨ k.Denies s f

/-- A fault after the document was written: a run of Terraform failed, or files could not be used. -/
def StopsLate (k : Keeper) (s : Session) (f : Fault) : Prop :=
  f.IsTerraform ∨ f.IsPostWrite ∨ k.Denies s f

theorem Denies.isAccess (h : k.Denies s f) : f.IsAccess := by
  obtain h | ⟨e, rfl, -⟩ := h
  · exact h.isAccess
  · trivial

/-- Who gives the lock back finds the files as they are. -/
theorem Denies.released (h : k.Denies s f) : k.Denies { s with holdsLock := false } f :=
  h.imp_left Store.Denies.released

theorem StopsLate.released (h : k.StopsLate s f) : k.StopsLate { s with holdsLock := false } f :=
  h.imp_right (Or.imp_right Denies.released)

/-! ## Telling -/

section
variable [Frame rel]

theorem keeps_existingName (text key : String) :
    (existingName text key).Keeps rel Fault.IsOfDocument := by
  unfold existingName
  refine keeps_bind (Document.keeps_blockOf text key) fun block => ?_
  cases block with
  | none => exact keeps_pure _
  | some block =>
    refine keeps_bind (Record.keeps_read block) fun r => ?_
    cases r with
    | ok r => exact keeps_pure _
    | error e => exact keeps_pure _

theorem keeps_refuseDuplicate (text key : String) :
    (refuseDuplicate text key : Action α).Keeps rel fun _ => True :=
  keeps_bind (keeps_existingName text key).any fun _ => Action.keeps_throw trivial

theorem keeps_showKeys_console (keys : List String) (empty : String) :
    (showKeys keys empty).Keeps rel Fault.IsOfConsole :=
  Action.keeps_drawAll_console _

theorem keeps_showKeys (keys : List String) (empty : String) :
    (showKeys keys empty).Keeps rel Fault.IsMild :=
  Action.keeps_drawAll _

/-- The name of the document has no slash. -/
theorem slash_notMem_append (k : Keeper) {text : String} (h : '/' ∉ text.toList) :
    '/' ∉ (text ++ k.documentName).toList := by
  rw [String.toList_append]
  exact List.not_mem_append h k.store.named_ne.2.2

theorem keeps_introduceCreation (k : Keeper) (text : String) :
    (k.introduceCreation text).Keeps rel := by
  unfold introduceCreation
  refine Process.keeps_lift_bind (Action.keeps_read _) fun present => ?_
  split
  · exact Process.keeps_then (Action.keeps_status _) fun _ =>
      Process.keeps_then (Action.keeps_say _) fun _ =>
      Process.keeps_lift_bind (Document.keeps_keysOf text) fun keys =>
      Process.keeps_lift (keeps_showKeys keys _)
  · exact Process.keeps_last (Action.keeps_status _)

theorem keeps_showReplaced (text key : String) :
    (showReplaced text key).Keeps rel fun _ => True := by
  unfold showReplaced
  refine keeps_bind (Document.keeps_blockOf text key).any fun block => ?_
  cases block with
  | none => exact keeps_pure _
  | some block =>
    refine keeps_bind (Record.keeps_read block).any fun r => ?_
    cases r with
    | ok r => exact (Prompt.keeps_showSummary _ _).any
    | error e => exact keeps_bind (Action.keeps_warn _) fun _ => Action.keeps_say _

theorem keeps_reportCreation (k : Keeper) (d : Draft) (key : String) (keys : List String) :
    (k.reportCreation d key keys).Keeps rel kind := by
  have hlast : (Action.drawAll (k.creationNotes.map .line)).Keeps rel kind := by
    refine Action.keeps_drawAll_lines (List.forall_mem_cons.2 ⟨by decide, ?_⟩)
    exact List.forall_mem_cons.2 ⟨k.slash_notMem_append (by decide), by decide⟩
  unfold reportCreation
  refine keeps_bind (Action.keeps_success _) fun _ => keeps_bind (Action.keeps_step _ _ _)
    fun _ => ?_
  dsimp only
  split
  · exact keeps_bind (Action.keeps_success _) fun _ => hlast
  · exact hlast

/-- Only a key with a slash keeps the console from showing the keys that are left. -/
theorem keeps_reportRemoval_of (k : Keeper) (forget : Bool) {rest : List String}
    (h : (showKeys rest "None").Keeps rel kind) : (k.reportRemoval forget rest).Keeps rel kind := by
  have hlast : (Action.drawAll (k.removalNotes.map .line)).Keeps rel kind := by
    refine Action.keeps_drawAll_lines (List.forall_mem_cons.2 ⟨by decide, ?_⟩)
    exact List.forall_mem_cons.2 ⟨k.slash_notMem_append (by decide), by decide⟩
  unfold reportRemoval
  refine keeps_bind (Action.keeps_say _) fun _ => keeps_bind h fun _ => ?_
  split
  · exact keeps_bind hlast fun _ => Action.keeps_warn _
  · exact keeps_pure _

theorem keeps_reportRemoval (k : Keeper) (forget : Bool) (rest : List String) :
    (k.reportRemoval forget rest).Keeps rel Fault.IsOfConsole :=
  k.keeps_reportRemoval_of forget (keeps_showKeys_console rest _)

end

/-! ## Asking -/

theorem keeps_accepts [Frame.Answers rel] (k : Keeper) (text : String) (assumeYes : Bool) :
    (k.accepts text assumeYes).Keeps rel fun _ => True := by
  unfold accepts
  split
  · exact keeps_pure _
  · refine keeps_bind (Document.keeps_demandMap text).any fun hasMap => ?_
    split
    · exact keeps_pure _
    · refine keeps_bind (Action.keeps_warn _) fun _ => ?_
      split
      · exact keeps_pure _
      · exact (Prompt.keeps_confirm _ _).any

theorem keeps_acceptsImport [Frame.Answers rel] (k : Keeper) (text key : String)
    (keys : List String) (assumeYes : Bool) :
    (k.acceptsImport text key keys assumeYes).Keeps rel fun _ => True := by
  have haccepts : (k.accepts text assumeYes).Keeps rel fun _ => True := k.keeps_accepts text assumeYes
  unfold acceptsImport
  split
  · refine keeps_bind (keeps_showReplaced text key) fun _ => ?_
    split
    · refine keeps_bind (Prompt.keeps_confirm _ _).any fun confirmed => ?_
      split
      · exact keeps_pure _
      · exact haccepts
    · exact haccepts
  · exact haccepts

theorem keeps_fetchDraft [Frame.Requests rel] (k : Keeper) (id : String) :
    (k.fetchDraft id).Keeps rel Fault.IsMild := by
  unfold fetchDraft
  refine keeps_bind (k.client.keeps_describeInstance id) fun described =>
    keeps_bind (k.client.keeps_collectVolumes described) fun volumes =>
    keeps_bind (k.client.keeps_instanceProtection id) fun protection =>
    keeps_bind (Action.keeps_ofShape _) fun d =>
    keeps_bind d.keeps_validate fun _ => keeps_pure _

/-! ## Terraform -/

/-- What is done once a run of Terraform fails keeps what the runs keep. -/
theorem keeps_onTerraformFailure [Frame rel] {act : Action α} {handle : Report → String → Action α}
    (hact : act.Keeps rel fun _ => True)
    (hhandle : ∀ r stderr, (handle r stderr).Keeps rel fun _ => True) :
    (onTerraformFailure act handle).Keeps rel fun _ => True := by
  refine Action.keeps_recover hact fun r _ => ?_
  split
  · exact hhandle _ _
  · exact Action.keeps_throw trivial

/-- Only the failures of Terraform are handled. -/
theorem meets_onTerraformFailure {α : Type} {act : Action α}
    {handle : Report → String → Action α} {ok : α → Session → Prop}
    {mid bad : Fault → Session → Prop} (hact : act.Meets s ok mid)
    (hhandle : ∀ words status stderr s', mid (.report (.terraform words status stderr)) s' →
      (handle (.terraform words status stderr) stderr).Meets s' ok bad)
    (hbad : ∀ f s', mid f s' → ¬ f.IsTerraform → bad f s') :
    (onTerraformFailure act handle).Meets s ok bad := by
  unfold onTerraformFailure
  rw [Action.meets_recover]
  refine hact.imp_bad fun f s' hf => ⟨?_, fun hother => hbad f s' hf fun hterraform => ?_⟩
  · rintro r rfl
    cases r with
    | terraform words status stderr => exact hhandle words status stderr s' hf
    | _ => exact (Action.meets_report _).2 (hbad _ s' hf id)
  · cases f with
    | report r => exact hother r rfl
    | _ => exact hterraform.elim

section
variable [Frame.Runs rel]

theorem ensureInitialized_stops (k : Keeper) (s : Session) :
    k.ensureInitialized.Meets s (fun _ s' => rel s s') fun f s' => rel s s' ∧ k.StopsCheck s' f := by
  unfold ensureInitialized
  rw [Action.meets_bind, Action.meets_read]
  refine ⟨fun present _ => ?_, fun e he => ⟨Frame.refl s, .inr (.inr ⟨e, rfl, he⟩)⟩⟩
  split
  · have hrun : ∀ c, (k.terraform.run c).Keeps rel Fault.IsTerraform :=
      fun c => k.terraform.keeps_run c
    have hready := keeps_bind (Action.keeps_status "Initializing Terraform...") fun _ =>
      keeps_bind (hrun (.init false)) fun _ => keeps_pure ()
    exact (hready s).imp_bad fun _ _ ht => ⟨ht.1, .inl ht.2⟩
  · exact (Action.meets_pure _).2 (Frame.refl s)

theorem keeps_ensureInitialized (k : Keeper) : k.ensureInitialized.Keeps rel fun _ => True := fun s =>
  (k.ensureInitialized_stops s).imp_bad fun _ _ ht => ⟨ht.1, trivial⟩

/-- A check of the document ends early where a run of Terraform fails, and where the files do not tell
whether Terraform was made ready. -/
theorem checkDocument_stops (k : Keeper) (s : Session) :
    k.checkDocument.Meets s (fun _ s' => rel s s') fun f s' => rel s s' ∧ k.StopsCheck s' f := by
  refine (k.ensureInitialized_stops s).bind fun _ t ht => ?_
  have hvalidate : (do let _ ← k.terraform.run .validate : Action Unit).Keeps rel Fault.IsTerraform :=
    keeps_bind (k.terraform.keeps_run _) fun _ => keeps_pure _
  exact (hvalidate t).imp (fun _ _ hu => Frame.trans ht hu)
    fun _ _ hu => ⟨Frame.trans ht hu.1, .inl hu.2⟩

theorem keeps_checkDocument (k : Keeper) : k.checkDocument.Keeps rel fun _ => True := fun s =>
  (k.checkDocument_stops s).imp_bad fun _ _ ht => ⟨ht.1, trivial⟩

theorem checkImport_stops (k : Keeper) (backup : Option Files.Path) (s : Session) :
    (k.checkImport backup).Meets s (fun _ s' => rel s s')
      fun f s' => rel s s' ∧ k.StopsLate s' f := by
  have hcheck : k.checkDocument.Meets s (fun _ s' => rel s s')
      fun f s' => rel s s' ∧ k.StopsCheck s' f := k.checkDocument_stops s
  unfold checkImport
  refine (meets_onTerraformFailure hcheck (fun words status stderr t ht => ?_)
    fun f t ht hf => ?_).bind fun _ t ht => ?_
  · have hstep : (Action.step "validation" false (Text.trim stderr)).Keeps rel fun _ => False :=
      Action.keeps_step _ _ _
    exact hstep.then_meets fun _ u hu =>
      (Action.meets_report _).2 ⟨Frame.trans ht.1 hu, .inr (.inl trivial)⟩
  · exact ⟨ht.1, .inr (.inr (ht.2.resolve_left hf))⟩
  · have hstep : (Action.step "validation" true "terraform validate passed").Keeps rel
        fun _ => False := Action.keeps_step _ _ _
    exact hstep.meets (fun _ _ hu => Frame.trans ht hu) fun _ _ _ hf => hf.elim

theorem keeps_checkImport (k : Keeper) (backup : Option Files.Path) :
    (k.checkImport backup).Keeps rel fun _ => True := fun s =>
  (k.checkImport_stops backup s).imp_bad fun _ _ ht => ⟨ht.1, trivial⟩

theorem keeps_importState (k : Keeper) (address id : String) :
    (k.importState address id).Keeps rel Fault.IsTerraform := by
  unfold importState clearState
  refine keeps_bind (keeps_bind (Action.keeps_status _) fun _ =>
    keeps_bind (k.terraform.keeps_isTracked _) fun tracked => ?_) fun _ =>
    keeps_bind (Action.keeps_status _) fun _ => keeps_bind (k.terraform.keeps_run _) fun _ =>
    keeps_bind (Action.keeps_step _ _ _) fun _ => Action.keeps_success _
  split
  · exact keeps_bind (Action.keeps_warn _) fun _ => keeps_bind (k.terraform.keeps_run _) fun _ =>
      Action.keeps_step _ _ _
  · exact keeps_pure _

theorem keeps_forgetState (k : Keeper) (key : String) :
    (k.forgetState key).Keeps rel Fault.IsTerraform := by
  unfold forgetState
  refine keeps_bind (k.terraform.keeps_isTracked _) fun tracked => ?_
  split
  · exact keeps_bind (k.terraform.keeps_run _) fun _ => keeps_bind (Action.keeps_success _)
      fun _ => Action.keeps_step _ _ _
  · exact keeps_bind (Action.keeps_status _) fun _ => Action.keeps_step _ _ _

end
end Keeper
end InstanceInventory
