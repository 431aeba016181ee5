import InstanceInventory.Keeper.Import
import InstanceInventory.Proofs.Keeper.Parts

/-! # Placing an instance in the document

* `Keeper.importRule`: the order in which Terraform is run for an import.
* `Keeper.place_meets`: under the lock the draft of an instance takes its place in the document as it
  is then, unless the operator gives up or there is a fault, and Terraform is run after that.
-/

namespace InstanceInventory.Keeper
set_option autoImplicit false
open InstanceInventory.Action (Frame Keeps Meets keeps_bind keeps_pure meets_bind meets_pure
  still_then still_last)
open Session (Did Still Calm Underway Follows)
open Terraform (Runner.outputLines)
variable {k : Keeper} {s s' t : Session} {text key id : String} {d : Draft}
  {rs : List Deed} {address : String}

/-! ## The order of runs -/

/-- An address was printed by a list of the tracked ones. -/
def Listed (address : String) (rs : List Deed) : Prop :=
  ∃ out err, .ran .stateList (.finished 0 out err) ∈ rs ∧ address ∈ Terraform.Runner.outputLines out

/-- The order in which Terraform is run for an import: nothing after a failure; the instance is
imported at most once, under its address, and the address is taken out of the state at most once
before that, if it was listed; both only after the document was validated. -/
def importRule (address id : String) (d : Deed) (older : List Deed) : Prop :=
  Session.Succeeds older ∧
    match d with
    | .ran (.init false) _ | .ran .validate _ | .ran .stateList _ | .ran .plan _ => True
    | .ran (.stateRemove a) _ =>
      a = address ∧ Validated older ∧ Listed address older ∧
        (∀ b o, .ran (.stateRemove b) o ∉ older) ∧ ∀ b i o, .ran (.importResource b i) o ∉ older
    | .ran (.importResource a i) _ =>
      a = address ∧ i = id ∧ Validated older ∧ ∀ b i o, .ran (.importResource b i) o ∉ older
    | _ => False

theorem importRule_of_isCheck {d : Deed} (hd : IsCheck d) (h : Session.Succeeds rs) :
    importRule address id d rs := by
  obtain ⟨o, rfl | rfl⟩ := hd
  · exact ⟨h, trivial⟩
  · exact ⟨h, trivial⟩

/-- The document was checked, and nothing was imported. -/
def ReadyToImport (rs : List Deed) : Prop :=
  Validated rs ∧ ∀ b i o, .ran (.importResource b i) o ∉ rs

theorem ReadyToImport.cons (h : ReadyToImport rs) {c : Terraform.Command} {o : Terraform.Outcome}
    (hc : ∀ b i, c ≠ .importResource b i) : ReadyToImport (.ran c o :: rs) := by
  obtain ⟨⟨out, err, hmem⟩, hunimported⟩ := h
  refine ⟨⟨out, err, List.mem_cons_of_mem _ hmem⟩, fun b i o' hmem => ?_⟩
  rcases List.mem_cons.1 hmem with heq | hmem
  · cases heq
    exact hc b i rfl
  · exact hunimported b i o' hmem

/-- Nothing was done but to check the document. -/
theorem readyToImport_of_checks (h : Validated rs) (hrs : ∀ d ∈ rs, IsCheck d) :
    ReadyToImport rs := by
  refine ⟨h, fun b i o hmem => ?_⟩
  obtain ⟨o', heq | heq⟩ := hrs _ hmem <;> cases heq

theorem clearState_meets (k : Keeper) {base : Session} (address id : String)
    (h : Underway (importRule address id) rs base s) (hvalidated : Validated rs)
    (hrs : ∀ d ∈ rs, IsCheck d) :
    (k.clearState address).Meets s
      (fun _ s' => ∃ rs, Underway (importRule address id) rs base s' ∧ ReadyToImport rs)
      fun _ s' => Follows (importRule address id) base s' := by
  have hready := readyToImport_of_checks hvalidated hrs
  unfold clearState
  refine still_then (Action.keeps_status _) fun _ s₁ h₁ => ?_
  have hunder := h.then_still h₁
  refine (k.terraform.isTracked_meets address hunder fun o => ⟨hunder.succeeds, trivial⟩)
    |>.imp_bad (fun _ _ h => h.2) |>.bind fun tracked s₂ ⟨o, h₂, hlisted⟩ => ?_
  have hready₂ : ReadyToImport (.ran .stateList o :: rs) := hready.cons nofun
  split
  · next htracked =>
    refine still_then (Action.keeps_warn _) fun _ s₃ h₃ => ?_
    have hunder₃ := h₂.then_still h₃
    obtain ⟨out, err, rfl, hmem⟩ := hlisted htracked
    have hunremoved : ∀ b o, Deed.ran (.stateRemove b) o ∉
        Deed.ran .stateList (.finished 0 out err) :: rs := by
      intro b o hremoved
      rcases List.mem_cons.1 hremoved with heq | hremoved
      · cases heq
      · obtain ⟨o', heq | heq⟩ := hrs _ hremoved <;> cases heq
    refine (k.terraform.run_meets (.stateRemove address) hunder₃ fun o => ⟨hunder₃.succeeds, rfl,
        hready₂.1, ⟨out, err, List.mem_cons_self .., hmem⟩, hunremoved, hready₂.2⟩)
      |>.imp_bad (fun _ _ h => h.2) |>.bind fun _ s₄ ⟨out', err', h₄⟩ => ?_
    exact still_last (Action.keeps_step _ _ _) fun _ s₅ h₅ =>
      ⟨_, h₄.then_still h₅, hready₂.cons nofun⟩
  · exact (meets_pure _).2 ⟨_, h₂, hready₂⟩

theorem importState_meets (k : Keeper) {base : Session} (address id : String)
    (h : Underway (importRule address id) rs base s) (hvalidated : Validated rs)
    (hrs : ∀ d ∈ rs, IsCheck d) :
    (k.importState address id).Meets s
      (fun _ s' => ∃ rs, Underway (importRule address id) rs base s')
      fun _ s' => Follows (importRule address id) base s' := by
  unfold importState
  refine (k.clearState_meets address id h hvalidated hrs).bind fun _ s₁ ⟨rs₁, h₁, hready⟩ =>
    still_then (Action.keeps_status _) fun _ s₂ h₂ => ?_
  have hunder := h₁.then_still h₂
  refine (k.terraform.run_meets (.importResource address id) hunder fun o =>
      ⟨hunder.succeeds, rfl, rfl, hready.1, hready.2⟩)
    |>.imp_bad (fun _ _ h => h.2) |>.bind fun _ s₃ ⟨out, err, h₃⟩ => ?_
  exact still_then (Action.keeps_step _ _ _) fun _ s₄ h₄ => still_last (Action.keeps_success _)
    fun _ s₅ h₅ => ⟨_, (h₃.then_still h₄).then_still h₅⟩

/-! ## Under the lock -/

/-- The draft of an instance took its place in the document, and Terraform was run after that. -/
def Places (k : Keeper) (d : Draft) (key id : String) (s s' : Session) : Prop :=
  ∃ w copy block t, d.block Record.blockLevel = .ok block ∧
    w.Fits (documentOptions k.settings) ⟨some key, some (key, block)⟩ ∧
    k.store.Rewritten s.disturbed w copy s t ∧ Follows (importRule (Record.addressOf key) id) t s'

theorem checkImport_meets (k : Keeper) (backup : Option Files.Path) (s : Session) :
    (k.checkImport backup).Meets s
      (fun _ s' => ∃ rs, Underway (importRule address id) rs s s' ∧ Validated rs ∧
        ∀ d ∈ rs, IsCheck d)
      fun _ s' => Follows (importRule address id) s s' := by
  unfold checkImport
  refine Meets.bind (meets_onTerraformFailure (k.checkDocument_meets (fun _ _ =>
      importRule_of_isCheck) s) (fun words status stderr t ht => ?_) fun f t ht _ => ht.2)
    fun _ t ⟨rs, ht, hchecked⟩ => ?_
  · exact still_then (Action.keeps_step _ _ _) fun _ u hu =>
      (Action.meets_report _).2 (ht.2.then_still hu)
  · exact still_last (Action.keeps_step _ _ _) fun _ u hu => ⟨rs, ht.then_still hu, hchecked⟩

theorem putIn_meets {keys : List String} (h : k.store.Looked s.disturbed text s s')
    (hwhole : ¬ Document.Broken text) (hkeys : Document.keys text = .ok keys) :
    (k.putIn text d key id keys).alone.Meets s' (fun _ => k.Places d key id s)
      fun f t => k.store.Stopped s.disturbed f s t ∨ k.Places d key id s t := by
  unfold putIn
  simp only [Process.alone_bind, Process.alone_lift]
  refine still_then (Action.keeps_status _) fun _ s₁ h₁ => ?_
  have hlooked := h.then_still h₁
  refine (k.backup_meets s₁).imp_bad (fun f t ht => .inl (hlooked.stopped hwhole ht.1))
    |>.bind fun copy s₂ h₂ => ?_
  have hstop : ∀ {f u}, Still s₂ u → k.store.Stopped s.disturbed f s u ∨ k.Places d key id s u :=
    fun hu => .inl (.kept text copy s₁ hlooked hwhole (h₂.then_still hu))
  refine (Document.blocksWithout_meets text (some key) s₂).imp_bad (fun f u hu => hstop hu.1) |>.bind
    fun blocks s₃ ⟨h₃, removed, hsplice⟩ => ?_
  refine (ofShape_meets (d.block Record.blockLevel) s₃).imp_bad (fun f v hv => hv ▸ hstop h₃)
    |>.bind fun block s₄ ⟨h₄, hblock⟩ => ?_
  subst h₄
  have hwrite := rewrite_meets (c := ⟨some key, some (key, block)⟩) hlooked hwhole hkeys
    (h₂.then_still h₃) hsplice
  rw [Change.keysAfter_target] at hwrite
  refine (hwrite.imp_bad fun _ _ hf => .inl hf.1).bind fun _ s₅ ⟨w, _, _, hfits, hrewritten⟩ => ?_
  have hends : ∀ {t u}, Still s₅ t → Follows (importRule (Record.addressOf key) id) t u →
      k.Places d key id s u := fun ht hu =>
    ⟨w, copy, block, _, hblock, hfits, hrewritten.then_still ht, hu⟩
  refine still_then (Action.keeps_success _) fun _ s₆ h₆ =>
    still_then (Action.keeps_step _ _ _) fun _ s₇ h₇ =>
      still_then (Action.keeps_status _) fun _ s₈ h₈ => ?_
  have h₅₈ := Frame.trans (Frame.trans h₆ h₇) h₈
  refine ((k.checkImport_meets copy s₈).imp_bad fun _ t ht => .inr (hends h₅₈ ht)) |>.bind
    fun _ s₉ ⟨rs, h₉, hvalidated, hrs⟩ => ?_
  refine ((k.importState_meets _ id h₉ hvalidated hrs).imp_bad fun _ t ht =>
    .inr (hends h₅₈ ht)) |>.bind fun _ t ⟨rs', ht⟩ =>
      still_then (Action.keeps_status _) fun _ u hu => ?_
  have hunder := ht.then_still hu
  refine (k.terraform.run_meets .plan hunder fun o => ⟨hunder.succeeds, trivial⟩).imp_bad
    (fun _ v hv => .inr (hends h₅₈ hv.2)) |>.bind fun _ v ⟨out, err, hv⟩ => ?_
  exact still_then (Action.keeps_say _) fun _ x hx => still_last (Action.keeps_step _ _ _)
    fun _ y hy => hends h₅₈ ((hv.then_still hx).then_still hy).follows

/-- What stands in the document under a key is shown, and the operator may be asked about it. -/
theorem acceptsImport_meets {keys : List String} (assumeYes : Bool)
    (h : k.store.Looked s.disturbed text s s') (hkeys : Document.keys text = .ok keys) :
    (k.acceptsImport text key keys assumeYes).Meets s'
      (fun _ t => k.store.Looked s.disturbed text s t ∧ ¬ Document.Broken text)
      fun f t => k.store.Stopped s.disturbed f s t := by
  have haccepts : ∀ t, k.store.Looked s.disturbed text s t → (k.accepts text assumeYes).Meets t
      (fun _ u => k.store.Looked s.disturbed text s u ∧ ¬ Document.Broken text)
      fun f u => k.store.Stopped s.disturbed f s u := fun t ht =>
    (k.accepts_meets text assumeYes t).imp (fun _ u hu => ⟨ht.then_calm hu.1, hu.2⟩)
      fun f u hu => .looked text (ht.then_calm hu.1) hu.2
  unfold acceptsImport
  split
  · next hmem =>
    have hwhole : ¬ Document.Broken text := by
      intro hbroken
      obtain rfl : [] = keys := Except.ok.inj (hbroken.keys.symm.trans hkeys)
      cases hmem
    have hshow : (showReplaced text key).Keeps Still fun _ => True := keeps_showReplaced text key
    have hconfirm : (Prompt.confirm ("Instance '" ++ key ++ "' already exists. Overwrite?")
        false).Keeps Calm Fault.IsMild := Prompt.keeps_confirm _ _
    refine hshow.bind_meets (fun f t ht _ => h.stopped hwhole ht) fun _ t ht => ?_
    have hshown := h.then_still ht
    split
    · refine hconfirm.bind_meets (fun f u hu _ => (hshown.then_calm hu).stopped hwhole (Frame.refl _)) fun confirmed u hu => ?_
      have hasked := hshown.then_calm hu
      split
      · exact (meets_pure _).2 ⟨hasked, hwhole⟩
      · exact haccepts u hasked
    · exact haccepts t hshown
  · exact haccepts s' h

/-- Under the lock the draft of an instance takes its place in the document as it is then, unless the
operator gives up or there is a fault. -/
theorem place_meets (k : Keeper) (d : Draft) (key id : String) (assumeYes : Bool) (s : Session) :
    (k.place d key id assumeYes).alone.Meets s
      (fun
        | false => k.store.Declined s
        | true => k.Places d key id s)
      fun f s' => k.store.Stopped s.disturbed f s s' ∨ k.Places d key id s s' := by
  unfold place
  simp only [Process.alone_bind, Process.alone_lift, Process.alone_ite]
  refine ((k.readText_meets s.disturbed s).imp_bad fun _ _ hf => .inl hf.1).bind fun text s₁ h₁ => ?_
  refine ((k.keysOf_meets h₁).imp_bad fun _ _ hf => .inl hf.1).bind
    fun keys s₂ ⟨h₂, hkeys⟩ => ?_
  refine ((acceptsImport_meets assumeYes h₂ hkeys).imp_bad fun _ _ => .inl).bind
    fun accepted s₃ ⟨h₃, hwhole⟩ => ?_
  split
  · exact (h₃.cancel_meets hwhole _).bind fun _ t ht => (meets_pure _).2 ht
  · exact (putIn_meets h₃ hwhole hkeys).bind fun _ t ht => (meets_pure _).2 ht

end InstanceInventory.Keeper
