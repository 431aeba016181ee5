import InstanceInventory.Action

/-! # Processes

* `Process`: something that is done in steps, between which others may be at work.
* `Process.once`: an action as one step. Inside of a process an action stands for its step.
* `Process.alone`: a process, where nobody else is at work.
-/

namespace InstanceInventory
set_option autoImplicit false

/-- Something that is done in steps. Between two steps others may be at work; within a step they are
not. An action that leaves the files alone can be one step however long it takes, since nobody sees
it. -/
inductive Process (α : Type) : Type 1 where
  | finished (r : Except Fault α)
  | step {β : Type} (act : Action β) (next : Except Fault β → Process α)

namespace Process
variable {α β : Type}

/-- A process with what is done next; a fault ends both. -/
def bind : Process α → (α → Process β) → Process β
  | finished (.ok a), f => f a
  | finished (.error e), _ => finished (.error e)
  | step act next, f => step act fun r => (next r).bind f

/-- An action as one step. -/
def once (act : Action α) : Process α :=
  step act finished

instance : Monad Process where
  pure a := finished (.ok a)
  bind := bind

instance : MonadLift Action Process where
  monadLift := once

/-- A process, where nobody else is at work. -/
def alone : Process α → Action α
  | finished r => Action.ofExcept r
  | step act next => do (next (← act.observe)).alone

end Process
end InstanceInventory
