import InstanceInventory.Proofs.Action.Outside

/-! # What actions return

* `Session.Kept`: what is known of a session goes on to be known.
* `Action.Returns`: where something is known of the session, an action comes to values with a property
  only, and it goes on to be known.
* `Prompt.returns_untilDone`: what every round keeps of a state holds of it until it is done.
-/

namespace InstanceInventory
set_option autoImplicit false

/-- What is known of a session goes on to be known. -/
def Session.Kept (known : Session → Prop) (s s' : Session) : Prop :=
  known s → known s'

open Session (Kept)
variable {α β σ : Type} {known : Session → Prop} {P : α → Prop} {Q : β → Prop}

namespace Action

/-- Where something is known of the session, an action comes to values with a property only, and it
goes on to be known. -/
def Returns (known : Session → Prop) (P : α → Prop) (act : Action α) : Prop :=
  ∀ s, known s → act.Meets s (fun a s' => P a ∧ known s') fun _ _ => True

theorem Returns.imp {act : Action α} {P' : α → Prop} (h : act.Returns known P)
    (hP : ∀ a, P a → P' a) : act.Returns known P' :=
  fun s hs => (h s hs).imp (fun _ _ ha => ⟨hP _ ha.1, ha.2⟩) fun _ _ => id

theorem Returns.of_result {act : Action α} (h : act.Returns known P) {s : Session} {a : α}
    (hs : known s) (ho : (act.outcome s).1 = .ok a) : P a :=
  ((h s hs).of_value (Prod.ext ho rfl)).1

theorem returns_pure {a : α} (h : P a) : (pure a : Action α).Returns known P :=
  fun _ hs => (meets_pure a).2 ⟨h, hs⟩

theorem returns_throw (f : Fault) : (throw f : Action α).Returns known P :=
  fun _ _ => (meets_throw f).2 trivial

theorem Returns.bind {x : Action β} {f : β → Action α} (hx : x.Returns known Q)
    (hf : ∀ b, Q b → (f b).Returns known P) : (x >>= f).Returns known P :=
  fun s hs => Meets.bind (hx s hs) fun b t h => hf b h.1 t h.2

theorem Keeps.returns {act : Action α} {kind : Fault → Prop} (h : act.Keeps (Kept known) kind) :
    act.Returns known fun _ => True :=
  fun s hs => (h s).imp (fun _ _ hs' => ⟨trivial, hs' hs⟩) fun _ _ _ => trivial

/-- Whatever a first action comes to, the next one returns values with a property. -/
theorem Keeps.bind_returns {x : Action β} {f : β → Action α} {kind : Fault → Prop}
    (hx : x.Keeps (Kept known) kind) (hf : ∀ b, (f b).Returns known P) :
    (x >>= f).Returns known P :=
  hx.returns.bind fun b _ => hf b

/-- The same after an action that does not end early. -/
theorem Keeps.then_returns {x : Action β} {f : β → Action α}
    (hx : x.Keeps (Kept known) fun _ => False) (hf : ∀ b, (f b).Returns known P) :
    (x >>= f).Returns known P :=
  hx.bind_returns hf

instance : Frame.Answers (Kept fun _ => True) where
  refl _ := id
  trans h h' := h' ∘ h
  shown _ _ := id
  steps _ _ := id
  answer _ _ _ _ := id

theorem returns_ofExcept {e : Except Fault α} (h : ∀ a, e = .ok a → P a) :
    (ofExcept e).Returns known P :=
  fun _ hs => meets_ofExcept.2 ⟨fun a ha => ⟨h a ha, hs⟩, fun _ _ => trivial⟩

theorem returns_ofShape {e : Except ShapeFault α} (h : ∀ a, e = .ok a → P a) :
    (ofShape e).Returns known P := by
  refine returns_ofExcept fun a ha => ?_
  cases e with
  | error f => cases ha
  | ok b => exact h a (congrArg Except.ok (Except.ok.inj ha))

end Action

/-! ## Rounds of questions -/

namespace Prompt
open InstanceInventory.Action (Frame Keeps Returns returns_pure returns_throw)

theorem returns_repeatRounds {round : σ → Action (σ ⊕ α)} {I : σ → Prop}
    (h : ∀ state, I state → (round state).Returns known (Sum.elim I P)) (rounds : Nat)
    {state : σ} (hstate : I state) : (repeatRounds round rounds state).Returns known P := by
  induction rounds generalizing state with
  | zero => exact returns_throw _
  | succ rounds ih =>
    refine (h state hstate).bind fun next hnext => ?_
    cases next with
    | inl state => exact ih hnext
    | inr a => exact returns_pure hnext

/-- What every round keeps of a state holds of it until it is done. -/
theorem returns_untilDone {round : σ → Action (σ ⊕ α)} {I : σ → Prop}
    (h : ∀ state, I state → (round state).Returns known (Sum.elim I P)) {state : σ}
    (hstate : I state) : (untilDone round state).Returns known P := by
  have hget : (get : Action Session).Returns known fun _ => True :=
    fun _ hs => Action.meets_get.2 ⟨trivial, hs⟩
  exact hget.bind fun s _ => returns_repeatRounds h _ hstate

variable [Frame.Answers (Kept known)]

/-- A good answer is the one that is offered, or what is read of a trimmed one. -/
theorem returns_untilGood {question : String} {choices : List String} {shown : Option String}
    {offered : Option α} {reader : Reader α}
    (hoffered : ∀ a ∈ offered, P a) (hread : ∀ t a, reader (Text.trim t) = .ok a → P a) :
    (untilGood question choices shown offered reader).Returns known P := by
  refine (Action.keeps_marked question).bind_returns fun question => ?_
  refine returns_untilDone (I := fun _ => True) (fun _ _ => ?_) trivial
  refine (keeps_ask _).bind_returns fun answer => ?_
  split
  · next a ha =>
    split at ha
    · exact returns_pure (hoffered a ha)
    · cases ha
  · split
    · next a ha => exact returns_pure (hread answer a ha)
    · exact (Action.keeps_say _).then_returns fun _ => returns_pure trivial

theorem returns_text {question : String} {offered : Option String} {P : String → Prop}
    (hoffered : ∀ t ∈ offered, P t) (htrim : ∀ t, P (Text.trim t)) :
    (text question offered).Returns known P :=
  returns_untilGood hoffered fun t _ ha => Except.ok.inj ha ▸ htrim t

end Prompt
end InstanceInventory
