import InstanceInventory.Keeper.Remove
import InstanceInventory.Proofs.Keeper.Place

/-! # Taking an instance out of the document

* `Keeper.removeRule`: the order in which Terraform is run for a removal.
* `Keeper.takeOut_meets`: under the lock a key is cut out of the document as it is then, and Terraform
  is run after that; if it refuses the document the copy is written back.
-/

namespace InstanceInventory
set_option autoImplicit false
open InstanceInventory.Action (Frame Keeps Meets keeps_bind keeps_pure meets_bind meets_pure
  still_then still_last)
open Session (Did Still Calm Underway Follows)
variable {k : Keeper} {s s' t : Session} {f : Fault} {text key : String} {forget : Bool}
  {rs : List Deed}

/-- A kind of fault to which no report of what became of the document belongs. -/
theorem Fault.not_postWrite {kind : Fault → Prop} (h : kind f)
    (hkind : ∀ wording backup restored, ¬ kind (.report (.postWrite wording backup restored))) :
    ¬ f.IsPostWrite := by
  intro hf
  cases f with
  | report r =>
    cases r with
    | postWrite wording backup restored => exact hkind wording backup restored h
    | _ => exact hf
  | _ => exact hf

theorem Fault.IsMild.not_postWrite (h : f.IsMild) : ¬ f.IsPostWrite :=
  Fault.not_postWrite h fun _ _ _ => id

theorem Fault.IsAccess.not_postWrite (h : f.IsAccess) : ¬ f.IsPostWrite :=
  Fault.not_postWrite h fun _ _ _ => id

theorem Fault.IsOfDocument.not_postWrite (h : f.IsOfDocument) : ¬ f.IsPostWrite :=
  Fault.not_postWrite h fun _ _ _ => id

theorem Fault.IsTerraform.not_postWrite (h : f.IsTerraform) : ¬ f.IsPostWrite :=
  Fault.not_postWrite h fun _ _ _ => id

theorem Store.Bars.not_postWrite {st : Store} (h : st.Bars s f) : ¬ f.IsPostWrite := by
  obtain h | ⟨-, wording, rfl⟩ := h
  · exact h.isAccess.not_postWrite
  · exact id

namespace Keeper

/-! ## The order of runs -/

/-- The order in which Terraform is run for a removal: nothing after a failure; the address is taken
out of the state only where that is wanted, if it was listed, and after the document was
validated. -/
def removeRule (address : String) (forget : Bool) (d : Deed) (older : List Deed) : Prop :=
  Session.Succeeds older ∧
    match d with
    | .ran (.init false) _ | .ran .validate _ => True
    | .ran .stateList _ => forget = true ∧ Validated older
    | .ran (.stateRemove a) _ =>
      forget = true ∧ a = address ∧ Validated older ∧ Listed address older
    | _ => False

theorem removeRule_of_isCheck {address : String} {d : Deed} (hd : IsCheck d)
    (h : Session.Succeeds rs) : removeRule address forget d rs := by
  obtain ⟨o, rfl | rfl⟩ := hd
  · exact ⟨h, trivial⟩
  · exact ⟨h, trivial⟩

theorem forgetState_meets (k : Keeper) (key : String) {base : Session}
    (h : Underway (removeRule (Record.addressOf key) true) rs base s) (hvalidated : Validated rs) :
    (k.forgetState key).Meets s
      (fun _ s' => Follows (removeRule (Record.addressOf key) true) base s')
      fun f s' => f.IsTerraform ∧ Follows (removeRule (Record.addressOf key) true) base s' := by
  unfold forgetState
  dsimp only
  refine (k.terraform.isTracked_meets (Record.addressOf key) h fun o =>
    ⟨h.succeeds, rfl, hvalidated⟩).bind fun tracked s₁ ⟨o, h₁, hlisted⟩ => ?_
  split
  · next htracked =>
    obtain ⟨out, err, rfl, hmem⟩ := hlisted htracked
    have hvalidated₁ : Validated (.ran .stateList (.finished 0 out err) :: rs) :=
      let ⟨out', err', hmem'⟩ := hvalidated
      ⟨out', err', List.mem_cons_of_mem _ hmem'⟩
    refine (k.terraform.run_meets (.stateRemove (Record.addressOf key)) h₁ fun o =>
      ⟨h₁.succeeds, rfl, rfl, hvalidated₁, out, err, List.mem_cons_self .., hmem⟩).bind
      fun _ s₂ ⟨_, _, h₂⟩ => still_then (Action.keeps_success _) fun _ s₃ h₃ =>
        still_last (Action.keeps_step _ _ _)
          fun _ s₄ h₄ => ((h₂.then_still h₃).then_still h₄).follows
  · exact still_then (Action.keeps_status _) fun _ s₂ h₂ => still_last (Action.keeps_step _ _ _)
      fun _ s₃ h₃ => ((h₁.then_still h₂).then_still h₃).follows

/-! ## Under the lock -/

/-- A key was cut out of the document that held it, and Terraform was run after that. -/
def Removes (k : Keeper) (key : String) (forget : Bool) (rest : List String) (s s' : Session) :
    Prop :=
  ∃ w copy t, key ∈ w.keys ∧ rest = w.keys.filter (· != key) ∧
    w.Fits (documentOptions k.settings) { target := some key } ∧
    k.store.Rewritten ∅ w (some copy) s t ∧ Follows (removeRule (Record.addressOf key) forget) t s'

/-- A key was cut out of the document that held it, Terraform refused the document, and the text of
the copy was written back. -/
def TakesBack (k : Keeper) (key : String) (forget : Bool) (f : Fault) (s s' : Session) : Prop :=
  ∃ w copy t u text wording, key ∈ w.keys ∧
    w.Fits (documentOptions k.settings) { target := some key } ∧
    k.store.Rewritten ∅ w (some copy) s t ∧ Follows (removeRule (Record.addressOf key) forget) t u ∧
    u.files.readText (u.locate copy) = .ok text ∧ k.store.Writes text u s' ∧
    f = .report (.postWrite wording (some copy.text) true)

/-- A fault after the document was written. -/
def FailsToRemove (k : Keeper) (key : String) (forget : Bool) (f : Fault) (s s' : Session) : Prop :=
  (f.IsAccess ∨ f.IsTerraform) ∧ (∃ rest, k.Removes key forget rest s s') ∨
    k.TakesBack key forget f s s'

/-- The files refuse a step of a check or of what is done after it, or the copy cannot be read. -/
def Strands (k : Keeper) (copy : Files.Path) (s : Session) (f : Fault) : Prop :=
  k.Denies s f ∨ ∃ e, s.files.readText (s.locate copy) = .error e ∧ f = .file e

theorem Strands.isAccess {copy : Files.Path} (h : k.Strands copy s f) : f.IsAccess := by
  obtain h | ⟨e, -, rfl⟩ := h
  · exact h.isAccess
  · trivial

/-- The copy is written back over a document that Terraform refuses, and the report names it. -/
theorem checkRemoval_meets (k : Keeper) (key : String) (forget : Bool) (copy : Files.Path)
    (s : Session) :
    (k.checkRemoval key (some copy)).Meets s
      (fun _ s' => ∃ rs, Underway (removeRule (Record.addressOf key) forget) rs s s' ∧ Validated rs)
      fun f s' => k.Strands copy s' f ∧ Follows (removeRule (Record.addressOf key) forget) s s' ∨
        ∃ u text wording, Follows (removeRule (Record.addressOf key) forget) s u ∧
          u.files.readText (u.locate copy) = .ok text ∧ k.store.Writes text u s' ∧
          f = .report (.postWrite wording (some copy.text) true) := by
  unfold checkRemoval
  refine Meets.bind (meets_onTerraformFailure (k.checkDocument_meets (fun _ _ =>
      removeRule_of_isCheck) s) (fun words status stderr t ht => ?_) fun f t ht hf =>
      .inl ⟨.inl (ht.1.resolve_left hf), ht.2⟩) fun _ t ⟨rs, ht, hvalidated, _⟩ => ?_
  · refine still_then (Action.keeps_complain _) fun _ u hu => ?_
    have hfollows := ht.2.then_still hu
    refine (k.store.restore_meets copy u).imp_bad (fun f v hv =>
      .inl ⟨hv.2.imp_left .inl, hfollows.then_still hv.1⟩) |>.bind fun _ v ⟨text, htext, hwrites⟩ =>
        still_then (Action.keeps_step _ _ _) fun _ x hx => (Action.meets_report _).2 (.inr
          ⟨u, text, _, hfollows, htext, hwrites.then_still hx, rfl⟩)
  · exact still_last (Action.keeps_step _ _ _) fun _ u hu => ⟨rs, ht.then_still hu, hvalidated⟩

theorem cutOut_meets {keys : List String} (forget : Bool) (h : k.store.Looked ∅ text s s')
    (hwhole : ¬ Document.Broken text) (hkeys : Document.keys text = .ok keys) (hkey : key ∈ keys)
    (hpresent : k.store.isPresent s' = .ok true) :
    (k.cutOut text key (keys.filter (· != key)) forget).alone.Meets s'
      (fun _ => k.Removes key forget (keys.filter (· != key)) s)
      fun f t => ¬ f.IsPostWrite ∧ k.store.Stopped ∅ f s t ∨ k.FailsToRemove key forget f s t := by
  unfold cutOut
  simp only [Process.alone_bind, Process.alone_lift, Process.alone_ite, Process.alone_pure]
  refine (k.backup_meets s').imp_bad (fun f t ht =>
    .inl ⟨ht.2.isAccess.not_postWrite, h.stopped hwhole ht.1⟩) |>.bind fun copy s₁ h₁ => ?_
  cases copy with
  | none => exact absurd (hpresent.symm.trans h₁.2) (by simp)
  | some copy =>
    refine still_then (Action.keeps_status _) fun _ s₂ h₂ => ?_
    refine (Document.blocksWithout_meets text (some key) s₂).imp_bad (fun f u hu =>
      .inl ⟨hu.2.not_postWrite, .kept text (some copy) s' h hwhole
        (Store.Backs.then_still h₁ (Frame.trans h₂ hu.1))⟩)
      |>.bind fun blocks s₃ ⟨h₃, removed, hsplice⟩ => ?_
    have hwrite := rewrite_meets (c := { target := some key }) h hwhole hkeys
      (Store.Backs.then_still h₁ (Frame.trans h₂ h₃)) hsplice
    rw [Change.keysAfter_target] at hwrite
    simp only [Option.toList_none, List.map_nil, List.append_nil] at hwrite
    refine (hwrite.imp_bad fun f t hf => .inl
      ⟨hf.2.elim (·.not_postWrite) (·.isAccess.not_postWrite), hf.1⟩)
      |>.bind fun _ s₄ ⟨w, _, hheld, hfits, hrewritten⟩ => ?_
    subst hheld
    refine still_then (Action.keeps_success _) fun _ s₅ h₅ =>
      still_then (Action.keeps_step _ _ _) fun _ s₆ h₆ =>
        still_then (Action.keeps_status _) fun _ s₇ h₇ => ?_
    have hrewritten := hrewritten.then_still (Frame.trans (Frame.trans h₅ h₆) h₇)
    have hends : ∀ {t}, Follows (removeRule (Record.addressOf key) forget) s₇ t →
        k.Removes key forget (w.keys.filter (· != key)) s t :=
      fun ht => ⟨w, copy, s₇, hkey, rfl, hfits, hrewritten, ht⟩
    refine Meets.bind ((k.checkRemoval_meets key forget copy s₇).imp_bad ?_)
      fun _ s₈ ⟨rs, h₈, hvalidated⟩ => ?_
    · rintro f t (⟨hf, ht⟩ | ⟨u, text, wording, hu, htext, hwrites, hf⟩)
      · exact .inr (.inl ⟨.inl hf.isAccess, _, hends ht⟩)
      · exact .inr (.inr ⟨w, copy, s₇, u, text, wording, hkey, hfits, hrewritten, hu, htext,
          hwrites, hf⟩)
    · cases forget with
      | false => exact (meets_pure _).2 (hends h₈.follows)
      | true =>
        exact (k.forgetState_meets key h₈ hvalidated).imp (fun _ _ ht => hends ht)
          fun f t ht => .inr (.inl ⟨.inr ht.1, _, hends ht.2⟩)

/-- Under the lock a key is cut out of the document as it is then, unless there is a fault. -/
theorem takeOut_meets (k : Keeper) (key : String) (forget : Bool) (s : Session) :
    (k.takeOut key forget).alone.Meets s (fun rest => k.Removes key forget rest s)
      fun f s' => ¬ f.IsPostWrite ∧ k.store.Stopped ∅ f s s' ∨ k.FailsToRemove key forget f s s' := by
  unfold takeOut
  simp only [Process.alone_bind, Process.alone_lift, Process.alone_ite]
  rw [meets_bind, Action.meets_read]
  refine ⟨fun present hpresent => ?_, fun e _ => .inl ⟨id, .unread (.refl ∅ s)⟩⟩
  cases present with
  | false =>
    exact still_then (Action.keeps_complain _) fun _ t ht =>
      (Action.meets_report _).2 (.inl ⟨id, .unread ht⟩)
  | true =>
    simp only [Bool.not_true, Bool.false_eq_true, if_false]
    refine (k.store.readText_meets s).imp_bad (fun f t ht =>
      .inl ⟨ht.2.isAccess.not_postWrite, .unread (ht.1 ▸ .refl ∅ s)⟩) |>.bind
      fun text s₁ ⟨h₁, hfiles, hshows⟩ => ?_
    have hlooked : k.store.Looked ∅ text s s₁ := ⟨h₁, s, .refl ∅ s, hshows⟩
    refine (Document.demandMap_meets text s₁).imp_bad (fun f t ht => .inl
      ⟨ht.2.2.not_postWrite, .looked text (hlooked.then_still ht.1) ht.2.1⟩) |>.bind
      fun _ s₂ ⟨h₂, hwhole⟩ => ?_
    have hread := hlooked.then_still h₂
    refine (Document.keysOf_meets text s₂).imp_bad (fun f t ⟨ht, e, _, hf⟩ => .inl
      ⟨hf ▸ (Fault.IsOfDocument.ofLiteral e).not_postWrite, hread.stopped hwhole ht⟩)
      |>.bind fun keys s₃ ⟨h₃, hkeys⟩ => ?_
    split
    · exact (Action.meets_report _).2 (.inl ⟨id, hread.stopped hwhole h₃⟩)
    · next hmem =>
      have hkey : key ∈ keys := by simpa using hmem
      have hstill := (h₁.trans_same h₂).trans_same h₃
      exact (cutOut_meets forget (hread.then_still h₃) hwhole hkeys hkey
        (Store.isPresent_of_did hpresent hstill)).bind fun _ t ht => (meets_pure _).2 ht

end Keeper
end InstanceInventory
