import InstanceInventory.Keeper.Basic
import InstanceInventory.Proofs.Action.Keeps
import InstanceInventory.Proofs.Cloud.Attempt

/-! # What the world outside leaves as it is

* `Terraform.keeps_run` and the like: a run of Terraform ends early only with the report of its
  failure.
* `Cloud.Client.keeps_call`, `Retry.keeps_run`: requests to the provider, with the waits between
  attempts.
* `Prompt.keeps_untilDone` and the questions made of it.
-/

namespace InstanceInventory
set_option autoImplicit false
open InstanceInventory.Action (Frame Keeps keeps_bind keeps_pure keeps_throw keeps_display)

variable {α β σ ε : Type} {rel : Session → Session → Prop} {kind : Fault → Prop}

/-- The report that Terraform failed. -/
def Fault.IsTerraform : Fault → Prop
  | .report (.terraform ..) => True
  | _ => False

/-! ## Terraform -/

namespace Terraform.Runner
section
variable [Frame.Runs rel]

theorem keeps_start (r : Runner) (c : Command) :
    (r.start c).Keeps rel Fault.IsTerraform := by
  refine keeps_bind (Action.keeps_note _) fun _ s => ?_
  simp only [Action.meets_bind, Action.meets_get, Action.meets_set]
  have h : rel s _ := Frame.Runs.run s
    ((s.provisioner.next? c.name).getD (.quiet, s.provisioner)).2 (c.words r.binary) r.directory
  refine (Action.keeps_did _).meets (fun _ t ht => ?_) fun f t ht hf => ⟨Frame.trans h ht, hf⟩
  split
  · exact (Action.meets_pure _).2 (Frame.trans h ht)
  · exact (Action.meets_report _).2 ⟨Frame.trans h ht, trivial⟩

@[grind ←] theorem keeps_run (r : Runner) (c : Command) :
    (r.run c).Keeps rel Fault.IsTerraform := by
  refine keeps_bind (r.keeps_start c) fun ⟨status, stdout, stderr⟩ => ?_
  dsimp only
  split
  · exact keeps_pure _
  · exact keeps_throw trivial

@[grind ←] theorem keeps_isTracked (r : Runner) (address : String) :
    (r.isTracked address).Keeps rel Fault.IsTerraform := by
  refine keeps_bind (keeps_bind (r.keeps_start .stateList) fun ⟨status, stdout, stderr⟩ => ?_)
    fun _ => keeps_pure _
  dsimp only
  split
  · exact keeps_pure _
  · split
    · exact keeps_bind (Action.keeps_note _) fun _ => keeps_pure _
    · exact keeps_throw trivial

end
end Terraform.Runner

/-! ## The provider -/

namespace Retry
variable [Frame.Draws rel]

@[grind ←] theorem keeps_pause (p : Policy) (description wording : String) (attempt : Nat) :
    (pause p description wording attempt).Keeps rel Fault.IsMild := by
  unfold pause
  split
  · exact keeps_throw trivial
  · refine keeps_bind (Action.keeps_warn _) fun _ => ?_
    split
    · exact keeps_throw trivial
    · exact keeps_bind (Action.keeps_status _) fun _ s =>
        (Action.meets_modify _).2 (Frame.Draws.waited s _)

theorem keeps_runFrom (p : Policy) (judge : Judge ε) (description : String)
    {act : Action (Except ε α)} (hact : act.Keeps rel Fault.IsMild) (attempt retries : Nat) :
    (runFrom p judge description act attempt retries).Keeps rel Fault.IsMild := by
  induction retries generalizing attempt with
  | zero => exact hact
  | succ retries ih =>
    unfold runFrom
    grind

theorem keeps_run (p : Policy) (judge : Judge ε) (description : String)
    {act : Action (Except ε α)} (hact : act.Keeps rel Fault.IsMild) :
    (run p judge description act).Keeps rel Fault.IsMild :=
  keeps_runFrom p judge description hact 0 _

end Retry

namespace Cloud.Client
variable [Frame.Draws rel]

theorem keeps_attempt (r : Request) (collect : List Value → Except ShapeFault α) :
    (attempt r collect).Keeps rel Fault.IsMild := by
  refine fun s => (meets_attempt r collect s).imp ?_ ?_
  · rintro a _ ⟨-, rfl⟩
    exact Frame.Draws.draw s r
  · rintro f _ ⟨hf, rfl⟩
    obtain ⟨g, rfl⟩ := shape_of_attempted hf
    exact ⟨Frame.Draws.draw s r, trivial⟩

@[grind ←] theorem keeps_call (c : Client) (r : Request)
    (collect : List Value → Except ShapeFault α) :
    (c.call r collect).Keeps rel Fault.IsMild := by
  unfold call
  grind [Retry.keeps_run, keeps_attempt]

@[grind ←] theorem keeps_answer (c : Client) (r : Request) :
    (c.answer r).Keeps rel Fault.IsMild :=
  c.keeps_call r _

@[grind ←] theorem keeps_items (c : Client) (r : Request) (field : String) :
    (c.items r field).Keeps rel Fault.IsMild :=
  c.keeps_call r _

@[grind ←] theorem keeps_findLatestImage (c : Client) (pattern owner : String) :
    (c.findLatestImage pattern owner).Keeps rel Fault.IsMild := by
  unfold findLatestImage
  grind

theorem keeps_describeInstance (c : Client) (id : String) :
    (c.describeInstance id).Keeps rel Fault.IsMild := by
  unfold describeInstance
  grind

@[grind ←] theorem keeps_describeVolume (c : Client) (id : Value) :
    (c.describeVolume id).Keeps rel Fault.IsMild := by
  unfold describeVolume
  grind

theorem keeps_instanceProtection (c : Client) (id : String) :
    (c.instanceProtection id).Keeps rel Fault.IsMild := by
  unfold instanceProtection
  grind

@[grind ←] theorem keeps_addVolumes (c : Client) (table : Value.Table) (ms : List Value) :
    (c.addVolumes table ms).Keeps rel Fault.IsMild := by
  induction ms generalizing table with
  | nil => exact keeps_pure _
  | cons m ms ih =>
    unfold addVolumes
    grind

theorem keeps_collectVolumes (c : Client) (described : Value) :
    (c.collectVolumes described).Keeps rel Fault.IsMild := by
  unfold collectVolumes
  grind

theorem keeps_callerIdentity (c : Client) : c.callerIdentity.Keeps rel Fault.IsMild :=
  keeps_bind (c.keeps_answer _) fun _ => Action.keeps_ofShape _

theorem keeps_listInstances (c : Client) : c.listInstances.Keeps rel Fault.IsMild :=
  keeps_bind (c.keeps_items _ _) fun _ => Action.keeps_ofShape _

theorem keeps_listing (c : Client) (r : Request) (field : String)
    (row : Value → Except ShapeFault α) : (c.listing r field row).Keeps rel Fault.IsMild :=
  keeps_bind (c.keeps_items _ _) fun _ => Action.keeps_ofShape _

@[grind ←] theorem keeps_listNetworks (c : Client) : c.listNetworks.Keeps rel Fault.IsMild :=
  c.keeps_listing _ _ _

@[grind ←] theorem keeps_listSubnets (c : Client) (network : String) :
    (c.listSubnets network).Keeps rel Fault.IsMild :=
  c.keeps_listing _ _ _

@[grind ←] theorem keeps_listSecurityGroups (c : Client) (network : String) :
    (c.listSecurityGroups network).Keeps rel Fault.IsMild :=
  c.keeps_listing _ _ _

@[grind ←] theorem keeps_listInstanceProfiles (c : Client) :
    c.listInstanceProfiles.Keeps rel Fault.IsMild :=
  c.keeps_listing _ _ _

@[grind ←] theorem keeps_listKeyPairs (c : Client) : c.listKeyPairs.Keeps rel Fault.IsMild := by
  unfold listKeyPairs
  grind

end Cloud.Client

/-! ## The operator -/

namespace Prompt

@[grind ←] theorem keeps_showRows [Frame rel] (title : String) (headings : List String)
    (rows : List Cloud.Row) : (showRows title headings rows).Keeps rel Fault.IsMild := by
  unfold showRows
  grind

@[grind ←] theorem keeps_showNames [Frame rel] (title : String) (names : List Value) :
    (showNames title names).Keeps rel Fault.IsMild := by
  unfold showNames
  grind

@[grind ←] theorem keeps_showSummary [Frame rel] (d : Draft) (title : String) :
    (showSummary d title).Keeps rel Fault.IsMild := by
  unfold showSummary
  grind

section
variable [Frame.Answers rel]

@[grind ←] theorem keeps_ask (question : String) : (ask question).Keeps rel Fault.IsMild := by
  intro s
  unfold ask
  simp only [Action.meets_bind, Action.meets_get]
  cases h : s.answers with
  | nil => exact keeps_bind (keeps_display _) (fun _ => keeps_throw trivial) s
  | cons a as =>
    have h' : rel s _ := Frame.Answers.answer s a as h
    simp only [Action.meets_bind, Action.meets_set]
    refine (keeps_display _).meets (fun _ t ht => ?_) fun f t ht hf => ⟨Frame.trans h' ht, hf⟩
    cases a.reply with
    | given text => exact (Action.meets_pure _).2 (Frame.trans h' ht)
    | interrupt => exact (Action.meets_throw _).2 ⟨Frame.trans h' ht, trivial⟩

theorem keeps_repeatRounds {round : σ → Action (σ ⊕ α)}
    (h : ∀ state, (round state).Keeps rel Fault.IsMild) (rounds : Nat) (state : σ) :
    (repeatRounds round rounds state).Keeps rel Fault.IsMild := by
  induction rounds generalizing state with
  | zero => exact keeps_throw trivial
  | succ rounds ih =>
    refine keeps_bind (h state) fun next => ?_
    cases next with
    | inl state => exact ih state
    | inr a => exact keeps_pure a

@[grind ←] theorem keeps_untilDone {round : σ → Action (σ ⊕ α)}
    (h : ∀ state, (round state).Keeps rel Fault.IsMild) (state : σ) :
    (untilDone round state).Keeps rel Fault.IsMild :=
  keeps_bind Action.keeps_get fun _ => keeps_repeatRounds h _ state

@[grind ←] theorem keeps_untilGood (question : String) (choices : List String)
    (shown : Option String) (offered : Option α) (reader : Reader α) :
    (untilGood question choices shown offered reader).Keeps rel Fault.IsMild := by
  refine keeps_bind (Action.keeps_marked _) fun question => keeps_untilDone (fun state => ?_) ()
  unfold round
  grind

@[grind ←] theorem keeps_text (question : String) (offered : Option String) :
    (text question offered).Keeps rel Fault.IsMild :=
  keeps_untilGood _ _ _ _ _

@[grind ←] theorem keeps_choice (question : String) (choices : List String) (offered : String) :
    (choice question choices offered).Keeps rel Fault.IsMild :=
  keeps_untilGood _ _ _ _ _

@[grind ←] theorem keeps_integer (question : String) (offered : Int) :
    (integer question offered).Keeps rel Fault.IsMild :=
  keeps_untilGood _ _ _ _ _

@[grind ←] theorem keeps_numberTo (question : String) (last : Nat) :
    (numberTo question last).Keeps rel Fault.IsMild :=
  keeps_untilGood _ _ _ _ _

@[grind ←] theorem keeps_confirm (question : String) (offered : Bool) :
    (confirm question offered).Keeps rel Fault.IsMild :=
  keeps_untilGood _ _ _ _ _

@[grind ←] theorem keeps_required (question complaint : String) :
    (required question complaint).Keeps rel Fault.IsMild := by
  unfold required
  grind

@[grind ←] theorem keeps_optional (question : String) :
    (optional question).Keeps rel Fault.IsMild := by
  unfold optional
  grind

/-! ## A record, asked for -/

@[grind ←] theorem keeps_name : name.Keeps rel Fault.IsMild := keeps_required _ _

@[grind ←] theorem keeps_value (question : String) : (value question).Keeps rel Fault.IsMild :=
  keeps_required _ _

@[grind ←] theorem keeps_size (question : String) (offered : Int) :
    (size question offered).Keeps rel Fault.IsMild := by
  unfold size
  grind

@[grind ←] theorem keeps_securityGroups : securityGroups.Keeps rel Fault.IsMild := by
  unfold securityGroups
  grind

@[grind ←] theorem keeps_rootVolume : rootVolume.Keeps rel Fault.IsMild := by
  unfold rootVolume
  grind

@[grind ←] theorem keeps_extraVolume (number : Nat) :
    (extraVolume number).Keeps rel Fault.IsMild := by
  unfold extraVolume
  grind

@[grind ←] theorem keeps_extraVolumes : extraVolumes.Keeps rel Fault.IsMild := by
  unfold extraVolumes
  grind

@[grind ←] theorem keeps_protection : protection.Keeps rel Fault.IsMild := by
  unfold protection
  grind

@[grind ←] theorem keeps_tags : tags.Keeps rel Fault.IsMild := by
  unfold tags
  grind

variable [Frame.Draws rel]

@[grind ←] theorem keeps_image (settings : Settings) (client : Cloud.Client) :
    (image settings client).Keeps rel Fault.IsMild := by
  unfold image
  repeat refine keeps_bind (by grind) fun _ => ?_
  split
  · exact keeps_bind (keeps_value _) fun _ => keeps_pure _
  · refine keeps_bind (Action.keeps_status _) fun _ =>
      keeps_bind (Cloud.Client.keeps_findLatestImage _ _ _) fun found => ?_
    dsimp only
    split
    · exact keeps_bind (Action.keeps_status _) fun _ => keeps_pure _
    · exact keeps_throw ⟨_, rfl⟩

@[grind ←] theorem keeps_network (client : Cloud.Client) :
    (network client).Keeps rel Fault.IsMild := by
  unfold network
  repeat refine keeps_bind (by grind) fun _ => ?_
  grind

@[grind ←] theorem keeps_identity (client : Cloud.Client) :
    (identity client).Keeps rel Fault.IsMild := by
  unfold identity
  repeat refine keeps_bind (by grind) fun _ => ?_
  grind

theorem keeps_collectRecord (settings : Settings) (client : Cloud.Client) (name : String) :
    (collectRecord settings client name).Keeps rel Fault.IsMild := by
  unfold collectRecord
  repeat refine keeps_bind (by grind) fun _ => ?_
  grind

end
end Prompt

/-! ## Drafts and documents -/

section
variable [Frame rel]

@[grind ←] theorem Draft.keeps_validate (d : Draft) :
    (Action.ofExcept d.validate).Keeps rel Fault.IsMild := by
  unfold validate
  split
  · exact keeps_throw trivial
  · exact keeps_pure _
  · exact keeps_throw trivial

@[grind ←] theorem Document.keeps_keysOf (text : String) :
    (keysOf text).Keeps rel Fault.IsOfDocument := by
  unfold keysOf
  grind

@[grind ←] theorem Document.keeps_blockOf (text key : String) :
    (blockOf text key).Keeps rel Fault.IsOfDocument := by
  unfold blockOf
  grind

@[grind ←] theorem Document.keeps_blocksWithout (text : String) (key : Option String) :
    (blocksWithout text key).Keeps rel Fault.IsOfDocument := by
  unfold blocksWithout
  grind

@[grind ←] theorem Document.keeps_demandMap (text : String) :
    (demandMap text).Keeps rel Fault.IsOfDocument := by
  unfold demandMap
  grind

@[grind ←] theorem Document.keeps_demandKeys (text : String) (expected : List String) :
    (demandKeys text expected).Keeps rel Fault.IsOfDocument := by
  unfold demandKeys
  grind

@[grind ←] theorem Record.keeps_read (block : String) :
    (read block).Keeps rel Fault.IsOfDocument := by
  unfold read
  grind

end
end InstanceInventory
