import InstanceInventory.Proofs.Action.Outside
import InstanceInventory.Proofs.Document.Broken
import InstanceInventory.Proofs.Document.Rendered
import InstanceInventory.Proofs.Session

/-! # Looking at a document

* `Document.keysOf_meets` and the like: what the operations see of a document.
* `Keeper.accepts_meets`: a document that is broken is never written anew.
* `Action.Gives`: an action that always gives a value with a property, and leaves the files.
* `Document.keysOf_gives` and the like: what the operations see of a document that holds records.
* `Document.demandKeys_gives`: the document that is rendered from records passes its check.
-/

namespace InstanceInventory
set_option autoImplicit false
open InstanceInventory.Action (Frame Keeps still_then)
open Session (Still Calm)

/-! ## Any document -/

theorem Fault.IsOfDocument.ofLiteral (e : Literal.Fault) : (Fault.ofLiteral e).IsOfDocument := by
  cases e <;> trivial

/-- The report that the map of instances of a document is broken. -/
def Fault.IsUnbalanced (f : Fault) : Prop :=
  ∃ wording, f = .report (.plain .unbalancedDocument wording)

namespace Document
variable {s : Session} {α : Type}

/-- A look at a document, after what there is to note. -/
theorem look_meets (ns : List String) (v : Except Literal.Fault α) (s : Session) :
    (do Action.notes ns; Action.ofLiteral v : Action α).Meets s
      (fun a s' => Still s s' ∧ v = .ok a)
      fun f s' => Still s s' ∧ ∃ e, v = .error e ∧ f = .ofLiteral e := by
  refine still_then (Action.keeps_notes ns) fun _ s₁ h₁ => ?_
  cases v with
  | ok a => exact (Action.meets_pure a).2 ⟨h₁, rfl⟩
  | error e => exact (Action.meets_throw _).2 ⟨h₁, e, rfl, rfl⟩

theorem keysOf_meets (text : String) (s : Session) :
    (keysOf text).Meets s (fun ks s' => Still s s' ∧ keys text = .ok ks)
      fun f s' => Still s s' ∧ ∃ e, keys text = .error e ∧ f = .ofLiteral e :=
  look_meets _ _ s

theorem blocksWithout_meets (text : String) (key : Option String) (s : Session) :
    (blocksWithout text key).Meets s
      (fun bs s' => Still s s' ∧ ∃ removed, splice text key = .ok ⟨bs, removed⟩)
      fun f s' => Still s s' ∧ f.IsOfDocument := by
  unfold blocksWithout
  rw [← bind_assoc]
  refine (look_meets _ _ s).imp_bad (fun f s' ⟨h, e, _, hf⟩ => ⟨h, hf ▸ .ofLiteral e⟩) |>.bind
    fun v s' h => ?_
  exact (Action.meets_pure _).2 ⟨h.1, v.removed, h.2⟩

/-- A broken document is reported once its map is required. -/
theorem demandMap_meets (text : String) (s : Session) :
    (demandMap text).Meets s (fun _ s' => Still s s' ∧ ¬ Broken text)
      fun f s' => Still s s' ∧ (Broken text → f.IsUnbalanced) ∧ f.IsOfDocument := by
  unfold demandMap
  rw [← bind_assoc]
  have hfault : ∀ e, Broken text → requireMap text ≠ .error e := by
    intro e hbroken he
    obtain ⟨i, hi⟩ := hbroken.requireMap
    exact absurd (hi.symm.trans he) (by simp)
  refine (look_meets _ _ s).imp_bad (fun f s' ⟨h, e, he, hf⟩ =>
    ⟨h, fun hbroken => absurd he (hfault e hbroken), hf ▸ .ofLiteral e⟩) |>.bind fun v s' h => ?_
  cases v with
  | ok region =>
    refine (Action.meets_pure _).2 ⟨h.1, fun hbroken => ?_⟩
    obtain ⟨i, hi⟩ := hbroken.requireMap
    exact absurd (hi.symm.trans h.2) (by simp)
  | error e => exact (Action.meets_fail _ _).2 ⟨h.1, fun _ => ⟨_, rfl⟩, trivial⟩

theorem demandKeys_meets (text : String) (expected : List String) (s : Session) :
    (demandKeys text expected).Meets s (fun _ s' => Still s s' ∧ flaw? text expected = .ok none)
      fun f s' => Still s s' ∧ f.IsOfDocument := by
  unfold demandKeys
  rw [← bind_assoc]
  refine (look_meets _ _ s).imp_bad (fun f s' ⟨h, e, _, hf⟩ => ⟨h, hf ▸ .ofLiteral e⟩) |>.bind
    fun v s' h => ?_
  cases v with
  | none => exact (Action.meets_pure _).2 h
  | some flaw => exact (Action.meets_fail _ _).2 ⟨h.1, trivial⟩

end Document

/-- A broken document is never written anew. -/
theorem Keeper.accepts_meets (k : Keeper) (text : String) (assumeYes : Bool) (s : Session) :
    (k.accepts text assumeYes).Meets s (fun _ s' => Calm s s' ∧ ¬ Document.Broken text)
      fun f s' => Calm s s' ∧ (Document.Broken text → f.IsUnbalanced) := by
  unfold accepts
  split
  · next hblank =>
    refine (Action.meets_pure _).2 ⟨Frame.refl s, fun hbroken => ?_⟩
    rw [hbroken.not_blank] at hblank
    cases hblank
  · refine (Document.demandMap_meets text s).imp_bad (fun f s' h => ⟨h.1.calm, h.2.1⟩) |>.bind
      fun hasMap s₁ ⟨h₁, hwhole⟩ => ?_
    split
    · exact (Action.meets_pure _).2 ⟨h₁.calm, hwhole⟩
    · have hconfirm : (Prompt.confirm "Continue anyway?" false).Keeps Calm Fault.IsMild :=
        Prompt.keeps_confirm _ _
      refine still_then (Action.keeps_warn _) fun _ s₂ h₂ => ?_
      have h₁₂ := Frame.trans h₁.calm h₂.calm
      split
      · exact (Action.meets_pure _).2 ⟨h₁₂, hwhole⟩
      · exact hconfirm.meets (fun _ s₃ h₃ => ⟨Frame.trans h₁₂ h₃, hwhole⟩)
          fun f s₃ h₃ _ => ⟨Frame.trans h₁₂ h₃, fun hbroken => absurd hbroken hwhole⟩

/-! ## A document that holds records -/

namespace Action
variable {α β : Type} {P : α → Prop} {Q : β → Prop} {s : Session}

/-- An action that always gives a value with a property and leaves the files as they are. -/
def Gives (act : Action α) (P : α → Prop) : Prop :=
  ∀ s, act.Meets s (fun a s' => Still s s' ∧ P a) fun _ _ => False

theorem Gives.imp {act : Action α} {P' : α → Prop} (h : act.Gives P) (hP : ∀ a, P a → P' a) :
    act.Gives P' :=
  fun s => (h s).imp (fun _ _ ha => ⟨ha.1, hP _ ha.2⟩) fun _ _ => id

theorem Gives.keeps {act : Action α} (h : act.Gives P) (kind : Fault → Prop) :
    act.Keeps Still kind :=
  fun s => (h s).imp (fun _ _ ha => ha.1) fun _ _ hf => hf.elim

theorem Gives.bind_meets {x : Action α} {f : α → Action β} (hx : x.Gives P)
    {ok : β → Session → Prop} {bad : Fault → Session → Prop}
    (hf : ∀ a s', Still s s' → P a → (f a).Meets s' ok bad) : (x >>= f).Meets s ok bad :=
  meets_bind.2 ((hx s).imp (fun a s' ha => hf a s' ha.1 ha.2) fun _ _ h => h.elim)

theorem Gives.bind {x : Action α} {f : α → Action β} (hx : x.Gives P)
    (hf : ∀ a, P a → (f a).Gives Q) : (x >>= f).Gives Q := fun _ =>
  hx.bind_meets fun a s' hs ha =>
    (hf a ha s').imp (fun _ _ hb => ⟨Frame.trans hs hb.1, hb.2⟩) fun _ _ => id

theorem Gives.bind_keeps {x : Action α} {f : α → Action β} {kind : Fault → Prop} (hx : x.Gives P)
    (hf : ∀ a, P a → (f a).Keeps Still kind) : (x >>= f).Keeps Still kind := fun _ =>
  hx.bind_meets fun a _ hs ha =>
    (hf a ha).meets (fun _ _ hs' => Frame.trans hs hs') fun _ _ hs' hk => ⟨Frame.trans hs hs', hk⟩

theorem gives_pure {a : α} (h : P a) : (pure a : Action α).Gives P :=
  fun s => (meets_pure a).2 ⟨Frame.refl s, h⟩

theorem gives_of_keeps {act : Action α} (h : act.Keeps Still fun _ => False) :
    act.Gives fun _ => True :=
  fun _ => h.meets (fun _ _ hs => ⟨hs, trivial⟩) fun _ _ _ hf => hf

theorem gives_ofLiteral {v : Except Literal.Fault α} {a : α} (h : v = .ok a) :
    (ofLiteral v).Gives (· = a) := by
  rw [h]
  exact gives_pure rfl

theorem gives_mapM {f : β → Action α} {bs : List β} (hf : ∀ b ∈ bs, (f b).Gives fun _ => True) :
    (bs.mapM f).Gives fun _ => True := by
  induction bs with
  | nil => exact gives_pure trivial
  | cons b bs ih =>
    rw [List.mapM_cons]
    obtain ⟨hb, hbs⟩ := List.forall_mem_cons.1 hf
    exact hb.bind fun _ _ => (ih hbs).bind fun _ _ => gives_pure trivial

theorem gives_notes (ns : List String) : (notes ns).Gives fun _ => True :=
  gives_of_keeps (keeps_notes ns)

end Action
open InstanceInventory.Action (Gives gives_pure gives_ofLiteral gives_notes)

namespace Document
variable {text : String} {rs : List InstanceRecord} {r : InstanceRecord}

theorem keysOf_gives (h : Holds text rs) :
    (keysOf text).Gives (· = rs.map InstanceRecord.key) :=
  (gives_notes _).bind fun _ _ => gives_ofLiteral h.keys

theorem demandMap_gives (h : Holds text rs) :
    (demandMap text).Gives fun b => b = true ∨ Text.isBlankText text = true := by
  obtain ⟨region, hregion, hmap⟩ := h.map
  refine (gives_notes _).bind fun _ _ => (gives_ofLiteral hregion).bind fun _ hv => ?_
  subst hv
  exact gives_pure hmap

theorem blocksWithout_gives (h : Holds text rs) (target : Option String) :
    (blocksWithout text target).Gives
      (· = (rs.filter fun r => target != some r.key).map InstanceRecord.blockText) := by
  obtain ⟨removed, hsplice⟩ := h.splice target
  refine (gives_notes _).bind fun _ _ => (gives_ofLiteral hsplice).bind fun _ hv => ?_
  subst hv
  exact gives_pure rfl

theorem blockOf_gives (h : Holds text rs) (hr : r ∈ rs) :
    (blockOf text r.key).Gives (· = some r.blockText) :=
  (gives_notes _).bind fun _ _ => gives_ofLiteral (h.extract r hr)

theorem read_gives (h : r.TagsClear) : (Record.read r.blockText).Gives (· = .ok r) := by
  refine (gives_ofLiteral (InstanceRecord.parse_blockText h)).bind fun _ hv => ?_
  subst hv
  exact gives_pure rfl

/-- The document that is rendered from records with distinct keys passes its check. -/
theorem demandKeys_gives (o : Options) (h : (rs.map InstanceRecord.key).Nodup) :
    (demandKeys (render o (rs.map InstanceRecord.blockText)) (rs.map InstanceRecord.key)).Gives
      fun _ => True := by
  refine (gives_notes _).bind fun _ _ => (gives_ofLiteral (flaw?_records o h)).bind fun _ hv => ?_
  subst hv
  exact gives_pure trivial

end Document

namespace Keeper
variable {text : String} {rs : List InstanceRecord} {r : InstanceRecord}

theorem existingName_gives (h : Document.Holds text rs) (hr : r ∈ rs) (htags : r.TagsClear) :
    (existingName text r.key).Gives (· = some r.name) := by
  refine (Document.blockOf_gives h hr).bind fun _ hv => ?_
  subst hv
  refine (Document.read_gives htags).bind fun _ hv => ?_
  subst hv
  exact gives_pure rfl

/-- A document that holds records may be written anew without asking. -/
theorem accepts_gives (k : Keeper) (h : Document.Holds text rs) (assumeYes : Bool) :
    (k.accepts text assumeYes).Gives (· = true) := by
  unfold accepts
  split
  · exact gives_pure rfl
  · next hblank =>
    refine (Document.demandMap_gives h).bind fun b hb => ?_
    obtain rfl := hb.resolve_right hblank
    exact gives_pure rfl

end Keeper
end InstanceInventory
