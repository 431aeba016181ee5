import InstanceInventory.Proofs.Action.Outside
import InstanceInventory.Proofs.Session

/-! # Runs of Terraform in order

* `Terraform.Outcome.Fails`: the end of a run that is reported as a failure.
* `Session.Ordered`: each deed of a history is allowed by those before it.
* `Session.Underway`, `Session.Follows`: Terraform was run in the order that a rule allows, and no run
  has failed so far.
* `Terraform.Runner.run_meets`, `Terraform.Runner.isTracked_meets`: one more run.
-/

namespace InstanceInventory
set_option autoImplicit false
open InstanceInventory.Action (Meets meets_bind meets_pure still_then)

/-- The end of a run that is reported as a failure. A list of addresses may fail for want of a
state. -/
def Terraform.Outcome.Fails (c : Terraform.Command) : Terraform.Outcome → Prop
  | .missing => True
  | .finished status _ stderr =>
    status ≠ 0 ∧ ¬ (c = .stateList ∧ Text.contains stderr Terraform.Runner.noState = true)

def Deed.IsRun (d : Deed) : Prop :=
  ∃ c o, d = .ran c o

namespace Session
variable {rule : Deed → List Deed → Prop} {base s s' : Session} {rs : List Deed}

/-- Each deed of a history, the last one first, is allowed by those before it. -/
def Ordered (rule : Deed → List Deed → Prop) : List Deed → Prop
  | [] => True
  | d :: older => rule d older ∧ Ordered rule older

/-- Since a session Terraform was run in the order that a rule allows. -/
def Follows (rule : Deed → List Deed → Prop) (base s : Session) : Prop :=
  ∃ rs, Did ∅ rs base s ∧ Ordered rule rs

/-- No run of a history has failed. -/
def Succeeds (rs : List Deed) : Prop :=
  ∀ c o, .ran c o ∈ rs → ¬ o.Fails c

/-- The same, where these are the runs and none has failed. -/
structure Underway (rule : Deed → List Deed → Prop) (rs : List Deed) (base s : Session) : Prop where
  did : Did ∅ rs base s
  ordered : Ordered rule rs
  succeeds : Succeeds rs

theorem Underway.refl (rule : Deed → List Deed → Prop) (s : Session) : Underway rule [] s s :=
  ⟨.refl ∅ s, trivial, fun _ _ h => nomatch h⟩

theorem Underway.follows (h : Underway rule rs base s) : Follows rule base s :=
  ⟨rs, h.did, h.ordered⟩

theorem Underway.then_still (h : Underway rule rs base s) (hs : Still s s') :
    Underway rule rs base s' :=
  { h with did := h.did.then_still hs }

theorem Follows.then_still (h : Follows rule base s) (hs : Still s s') : Follows rule base s' :=
  let ⟨rs, hdid, hordered⟩ := h
  ⟨rs, hdid.then_still hs, hordered⟩

theorem Follows.refl (rule : Deed → List Deed → Prop) (s : Session) : Follows rule s s :=
  (Underway.refl rule s).follows

theorem Underway.then_run (h : Underway rule rs base s) {c : Terraform.Command}
    {o : Terraform.Outcome} (hrule : rule (.ran c o) rs) (hs : Did ∅ [.ran c o] s s') :
    Follows rule base s' ∧ (¬ o.Fails c → Underway rule (.ran c o :: rs) base s') := by
  have hdid : Did ∅ (.ran c o :: rs) base s' := h.did.trans_same hs
  refine ⟨⟨_, hdid, hrule, h.ordered⟩, fun ho => ⟨hdid, ⟨hrule, h.ordered⟩, ?_⟩⟩
  intro c' o' hmem
  rcases List.mem_cons.1 hmem with heq | hmem
  · cases heq
    exact ho
  · exact h.succeeds c' o' hmem

end Session
open Session (Did Still Underway Follows)

namespace Terraform.Runner
variable {rule : Deed → List Deed → Prop} {base s : Session} {rs : List Deed}

theorem start_meets (r : Runner) (c : Command) (s : Session) :
    (r.start c).Meets s
      (fun p s' => Did ∅ [.ran c (.finished p.1 p.2.1 p.2.2)] s s')
      fun f s' => f.IsTerraform ∧ Did ∅ [.ran c .missing] s s' := by
  unfold start
  refine still_then (Action.keeps_note _) fun _ s₁ h₁ => ?_
  rw [meets_bind, Action.meets_get]
  generalize (s₁.provisioner.next? c.name).getD (.quiet, s₁.provisioner) = next
  obtain ⟨outcome, provisioner⟩ := next
  dsimp only
  rw [meets_bind, Action.meets_set, meets_bind, Action.did, Action.meets_modify]
  have hdid : Did ∅ [.ran c outcome] s _ := h₁.then_did (({ Did.refl ∅ s₁ with
    deeds := rfl } : Still s₁ { s₁ with
      provisioner, made := .run (c.words r.binary) r.directory :: s₁.made }).then_deed
    (.ran c outcome))
  cases outcome with
  | finished status stdout stderr => exact (meets_pure _).2 hdid
  | missing => exact (Action.meets_report _).2 ⟨trivial, hdid⟩

theorem run_meets (r : Runner) (c : Command) (h : Underway rule rs base s)
    (hrule : ∀ o, rule (.ran c o) rs) :
    (r.run c).Meets s
      (fun _ s' => ∃ out err, Underway rule (.ran c (.finished 0 out err) :: rs) base s')
      fun f s' => f.IsTerraform ∧ Follows rule base s' := by
  refine (r.start_meets c s).imp_bad (fun f s' hf => ⟨hf.1, (h.then_run (hrule _) hf.2).1⟩)
    |>.bind fun ⟨status, out, err⟩ s' hs => ?_
  have hrun := h.then_run (hrule _) hs
  dsimp only
  split
  · next hstatus =>
    subst hstatus
    exact (meets_pure _).2 ⟨out, err, hrun.2 fun hfails => hfails.1 rfl⟩
  · exact (Action.meets_report _).2 ⟨trivial, hrun.1⟩

/-- The addresses are listed. An address that is tracked was listed. -/
theorem isTracked_meets (r : Runner) (address : String) (h : Underway rule rs base s)
    (hrule : ∀ o, rule (.ran .stateList o) rs) :
    (r.isTracked address).Meets s
      (fun tracked s' => ∃ o, Underway rule (.ran .stateList o :: rs) base s' ∧
        (tracked = true → ∃ out err, o = .finished 0 out err ∧ address ∈ outputLines out))
      fun f s' => f.IsTerraform ∧ Follows rule base s' := by
  unfold isTracked stateList
  rw [bind_assoc]
  refine (r.start_meets .stateList s).imp_bad
    (fun f s' hf => ⟨hf.1, (h.then_run (hrule _) hf.2).1⟩) |>.bind
    fun ⟨status, out, err⟩ s' hs => ?_
  have hrun := h.then_run (hrule _) hs
  dsimp only
  split
  · next hstatus =>
    subst hstatus
    refine meets_bind.2 ((meets_pure _).2 ((meets_pure _).2
      ⟨_, hrun.2 fun hfails => hfails.1 rfl, fun htracked => ⟨out, err, rfl, ?_⟩⟩))
    exact List.contains_iff_mem.1 htracked
  · split
    · next hnone =>
      rw [bind_assoc]
      refine still_then (Action.keeps_note _) fun _ s'' hs' => meets_bind.2 ((meets_pure _).2
        ((meets_pure _).2 ⟨_, (hrun.2 fun hfails => hfails.2 ⟨rfl, hnone⟩).then_still hs', ?_⟩))
      intro htracked
      cases htracked
    · exact meets_bind.2 ((Action.meets_report _).2 ⟨trivial, hrun.1⟩)

end Terraform.Runner
end InstanceInventory
