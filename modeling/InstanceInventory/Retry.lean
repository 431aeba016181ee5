import InstanceInventory.Action

/-! # Trying again

* `Retry.Policy`: how often something is tried, and how long it is waited before the second attempt.
* `Retry.delay`: the wait before each further attempt, twice as long as the one before.
* `Retry.run`: tries until there is success, a failure that another attempt would not mend, or the
  last attempt has failed.
-/

namespace InstanceInventory.Retry
set_option autoImplicit false

/-- How often something is tried, and the wait before the second attempt. -/
structure Policy where
  attempts : Int
  baseDelay : Number

/-- How often something is tried again after the first attempt. -/
def Policy.retries (p : Policy) : Nat :=
  (p.attempts - 1).toNat

/-- The wait after the failed attempt of a number, counted from zero. An integer stays one. -/
def delay? (base : Number) (attempt : Nat) : Option Number :=
  match base with
  | .int n => some (.int (n * Int.ofNat (Nat.pow 2 attempt)))
  | .real d => (Double.ofInt? (Int.ofNat (Nat.pow 2 attempt))).map fun w => .real (d.mul w)

/-- What failures are, to the one who tries again: their wording, and whether another attempt may
mend them, where that can be told. -/
structure Judge (ε : Type) where
  wording : ε → String
  isTransient : ε → Except ShapeFault Bool

/-- Waits after the failed attempt of a number, counted from zero, and tells so. -/
def pause (p : Policy) (description wording : String) (attempt : Nat) : Action Unit := do
  match delay? p.baseDelay attempt with
  | none => throw .tooLarge
  | some wait =>
    Action.warn (description ++ " failed (attempt " ++ countText (attempt + 1) ++ "/" ++
      integerText p.attempts ++ "): " ++ wording)
    match wait.toDouble? with
    | none => throw .tooLarge
    | some d =>
      Action.status ("Retrying in " ++ d.general ++ "s...")
      modify fun s => { s with waited := wait :: s.waited }

/-- Tries, where `retries` more attempts may follow the one of the number `attempt`. -/
def runFrom {ε α : Type} (p : Policy) (judge : Judge ε) (description : String)
    (act : Action (Except ε α)) (attempt : Nat) : Nat → Action (Except ε α)
  | 0 => act
  | retries + 1 => do
    match ← act with
    | .ok a => return .ok a
    | .error e =>
      if ← Action.ofShape (judge.isTransient e) then
        pause p description (judge.wording e) attempt
        runFrom p judge description act (attempt + 1) retries
      else return .error e

/-- Tries until there is success, a failure that another attempt would not mend, or the last attempt
has failed. -/
def run {ε α : Type} (p : Policy) (judge : Judge ε) (description : String)
    (act : Action (Except ε α)) : Action (Except ε α) :=
  runFrom p judge description act 0 p.retries

end InstanceInventory.Retry
