import InstanceInventory.Process
import InstanceInventory.Proofs.Action.Keeps

/-! # Processes

* `Process.alone_bind` and the like: a process that is put together of actions does, where nobody else
  is at work, what the actions do one after another.
* `Process.Keeps`: every step of a process keeps a relation, whatever the steps before it came to.
* `Process.Yields`: a process comes to values with a property only, whatever sessions its steps find.
-/

namespace InstanceInventory.Process
set_option autoImplicit false
variable {α β : Type}

/-! ## Where nobody else is at work -/

@[simp] theorem alone_pure (a : α) : (pure a : Process α).alone = pure a := rfl

@[simp] theorem alone_once (act : Action α) : (once act).alone = act := by
  funext s
  show (match act s with | (r, s') => (Action.ofExcept r).outcome s') = act s
  rcases act s with ⟨_ | _, _⟩
  · rfl
  · rfl

@[simp] theorem alone_bind (p : Process α) (f : α → Process β) :
    (p >>= f).alone = p.alone >>= fun a => (f a).alone := by
  show (p.bind f).alone = _
  induction p with
  | finished r =>
    cases r with
    | ok a => exact (pure_bind (m := Action) a fun a => (f a).alone).symm
    | error e => rfl
  | step act next ih =>
    rw [bind, alone, alone, bind_assoc]
    exact congrArg _ (funext ih)

@[simp] theorem alone_lift (act : Action α) : (liftM act : Process α).alone = act := alone_once act

@[simp] theorem alone_map (g : α → β) (p : Process α) : (g <$> p).alone = g <$> p.alone :=
  alone_bind p fun a => pure (g a)

@[simp] theorem alone_ite {c : Prop} [Decidable c] (p q : Process α) :
    (if c then p else q).alone = if c then p.alone else q.alone :=
  apply_ite _ _ _ _

theorem outcome_alone_finished (r : Except Fault α) (s : Session) :
    (finished r).alone.outcome s = (r, s) := by
  cases r <;> rfl

theorem outcome_alone_step (act : Action β) (next : Except Fault β → Process α) (s : Session) :
    (step act next).alone.outcome s = (next (act.outcome s).1).alone.outcome (act.outcome s).2 := rfl

/-! ## Where others may be at work -/

/-- Every step of a process keeps a relation, whatever the steps before it came to. -/
def Keeps (rel : Session → Session → Prop) : Process α → Prop
  | finished _ => True
  | step act next => act.Keeps rel (fun _ => True) ∧ ∀ r, (next r).Keeps rel

variable {rel : Session → Session → Prop} {kind : Fault → Prop}

theorem keeps_pure (a : α) : (pure a : Process α).Keeps rel := trivial

theorem keeps_lift {act : Action α} (h : act.Keeps rel kind) : (liftM act : Process α).Keeps rel :=
  ⟨h.any, fun _ => trivial⟩

theorem keeps_bind {p : Process α} {f : α → Process β} (hp : p.Keeps rel)
    (hf : ∀ a, (f a).Keeps rel) : (p >>= f).Keeps rel := by
  show (p.bind f).Keeps rel
  induction p with
  | finished r =>
    cases r with
    | ok a => exact hf a
    | error e => trivial
  | step act next ih => exact ⟨hp.1, fun r => ih r (hp.2 r)⟩

theorem keeps_lift_bind {act : Action α} {f : α → Process β} (hact : act.Keeps rel kind)
    (hf : ∀ a, (f a).Keeps rel) : (liftM act >>= f : Process β).Keeps rel :=
  keeps_bind (keeps_lift hact) hf

/-- A process that begins with an action which does not end early. -/
theorem keeps_then {act : Action α} {f : α → Process β} (hact : act.Keeps rel fun _ => False)
    (hf : ∀ a, (f a).Keeps rel) : (liftM act >>= f : Process β).Keeps rel :=
  keeps_lift_bind hact hf

theorem keeps_last {act : Action α} (hact : act.Keeps rel fun _ => False) :
    (liftM act : Process α).Keeps rel :=
  keeps_lift hact

theorem keeps_map {p : Process α} {f : α → β} (hp : p.Keeps rel) : (f <$> p).Keeps rel :=
  keeps_bind hp fun a => keeps_pure (f a)

/-! ## What a process comes to -/

/-- A process comes to values with a property only, whatever sessions its steps find. -/
def Yields (P : α → Prop) : Process α → Prop
  | finished (.ok a) => P a
  | finished (.error _) => True
  | step act next => ∀ s, (next (act.outcome s).1).Yields P

variable {P : α → Prop} {Q : β → Prop}

theorem yields_finished {a : α} : (finished (.ok a)).Yields P ↔ P a := Iff.rfl

theorem yields_step {γ : Type} {act : Action γ} {next : Except Fault γ → Process α} :
    (step act next).Yields P ↔ ∀ s, (next (act.outcome s).1).Yields P := Iff.rfl

theorem yields_pure {a : α} (h : P a) : (pure a : Process α).Yields P := h

theorem yields_true (p : Process α) : p.Yields fun _ => True := by
  induction p with
  | finished r => cases r <;> trivial
  | step act next ih => exact fun s => ih _

theorem yields_lift {act : Action α} (h : ∀ s, act.Meets s (fun a _ => P a) fun _ _ => True) :
    (liftM act : Process α).Yields P := by
  intro s
  show (finished (act.outcome s).1).Yields P
  exact Action.Meets.outcome (P := fun r _ => (finished r).Yields P) (h s)

theorem yields_bind {p : Process β} {f : β → Process α} (hp : p.Yields Q)
    (hf : ∀ b, Q b → (f b).Yields P) : (p >>= f).Yields P := by
  show (p.bind f).Yields P
  induction p with
  | finished r =>
    cases r with
    | ok b => exact hf b hp
    | error e => trivial
  | step act next ih => exact fun s => ih _ (hp s)

-- From here on a process is taken apart by the rules, never by running it.
attribute [irreducible] Yields

/-- A process that begins with something, whatever comes of it. -/
theorem yields_any_bind {p : Process β} {f : β → Process α} (hf : ∀ b, (f b).Yields P) :
    (p >>= f).Yields P :=
  yields_bind (yields_true p) fun b _ => hf b

theorem yields_map {p : Process β} {f : β → α} (hp : p.Yields Q) (hf : ∀ b, Q b → P (f b)) :
    (f <$> p).Yields P :=
  yields_bind hp fun b hb => yields_pure (hf b hb)

end InstanceInventory.Process
