import InstanceInventory.Process
import InstanceInventory.Store

/-! # Operations on the document

* `Operation`: an edit of the document, by what is done before the lock is taken, under the lock,
  and once it is given back.
* `Operation.alone`: an operation, where nobody else is at work.
-/

namespace InstanceInventory
set_option autoImplicit false

/-- An edit of the document of a store. -/
structure Operation where
  store : Store
  /-- What is known before the lock is taken. -/
  Plan : Type
  /-- What comes of it under the lock. -/
  Outcome : Type
  /-- What is done without the lock. There is no plan if the operator gives up. -/
  before : Process (Option Plan)
  /-- What is done under the lock. -/
  under : Plan → Process Outcome
  /-- What is said once the lock is given back. -/
  after : Plan → Outcome → Action Unit

/-- An operation, where nobody else is at work. -/
def Operation.alone (op : Operation) : Action Unit := do
  match ← op.before.alone with
  | none => pure ()
  | some plan =>
    let outcome ← op.store.withLock (op.under plan).alone
    op.after plan outcome

end InstanceInventory
