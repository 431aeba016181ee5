import InstanceInventory.Operation
import Mathlib.Logic.Function.Basic

/-! # Several at work on one document

* `Stage`: how far an operation has come.
* `System`: members with an operation each, the files that they share, and the holder of the lock.
* `System.advance`, `System.run`: the members take their steps in any order.
-/

namespace InstanceInventory
set_option autoImplicit false

/-- How far an operation has come. -/
inductive Stage (op : Operation) : Type 1 where
  /-- The lock is not wanted yet. -/
  | before (rest : Process (Option op.Plan))
  /-- The file of the lock is to be opened. -/
  | opening (plan : op.Plan)
  /-- The file of the lock is open, and the lock is waited for. -/
  | waiting (plan : op.Plan)
  /-- The lock is held. -/
  | inside (plan : op.Plan) (rest : Process op.Outcome)
  /-- The lock is given back. -/
  | leaving (plan : op.Plan) (outcome : op.Outcome)
  /-- There is nothing left to do. -/
  | ended (r : Except Fault Unit)

/-- Members with an operation each, in sessions of their own, that share their files. At most one of
them holds the lock. -/
structure System {ι : Type} (ops : ι → Operation) : Type 1 where
  files : Files.Tree
  holder : Option ι
  stages : (i : ι) → Stage (ops i)
  sessions : ι → Session

namespace System
variable {ι : Type} {ops : ι → Operation}

/-- The session of a member, with the files as they are. -/
def view (S : System ops) (i : ι) : Session :=
  { S.sessions i with files := S.files }

variable [DecidableEq ι]

/-- A member comes to a stage in a session, whose files all share. -/
def put (S : System ops) (i : ι) (s : Session) (stage : Stage (ops i)) : System ops where
  files := s.files
  holder := S.holder
  stages := Function.update S.stages i stage
  sessions := Function.update S.sessions i s

/-- A member does something in its session, which leads to a stage. -/
def perform {α : Type} (S : System ops) (i : ι) (act : Action α)
    (next : Except Fault α → Stage (ops i)) : System ops :=
  S.put i (act.outcome (S.view i)).2 (next (act.outcome (S.view i)).1)

/-- A member takes its next step. Where another holds the lock it goes on waiting, until it loses its
patience. -/
def advance (S : System ops) (i : ι) (isPatient : Bool) : System ops :=
  match S.stages i with
  | .before (.step act next) => S.perform i act fun r => .before (next r)
  | .before (.finished (.ok (some plan))) => S.put i (S.view i) (.opening plan)
  | .before (.finished (.ok none)) => S.put i (S.view i) (.ended (.ok ()))
  | .before (.finished (.error f)) => S.put i (S.view i) (.ended (.error f))
  | .opening plan => S.perform i (ops i).store.openLock fun
    | .ok () => .waiting plan
    | .error f => .ended (.error f)
  | .waiting plan =>
    if S.holder.isSome && isPatient then S
    else
      match (ops i).store.takeLock.outcome { S.view i with isLockedElsewhere := S.holder.isSome } with
      | (.ok (), s) => { S.put i s (.inside plan ((ops i).under plan)) with holder := some i }
      | (.error f, s) => S.put i s (.ended (.error f))
  | .inside plan (.step act next) => S.perform i act fun r => .inside plan (next r)
  | .inside plan (.finished r) =>
    { S.perform i Store.release fun _ => (match r with
        | .ok outcome => .leaving plan outcome
        | .error f => .ended (.error f)) with holder := none }
  | .leaving plan outcome => S.perform i ((ops i).after plan outcome) .ended
  | .ended _ => S

def run (S : System ops) : List (ι × Bool) → System ops
  | [] => S
  | (i, isPatient) :: steps => (S.advance i isPatient).run steps

/-- Nobody has begun. -/
structure Starts (S : System ops) : Prop where
  holder : S.holder = none
  stages : ∀ i, S.stages i = .before (ops i).before

end System
end InstanceInventory
