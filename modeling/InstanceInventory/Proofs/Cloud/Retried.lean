import InstanceInventory.Proofs.Cloud.Attempt
import InstanceInventory.Proofs.Record.Described
import InstanceInventory.Proofs.Retry

/-! # Requests that are tried again

* `Cloud.outcomeAt`: what the attempts of a request come to, as the provider's script has them.
* `Cloud.plays_attempt`: a request comes to these outcomes, one after the other.
* `Cloud.Failure.isTransient_iff`: the failures that another attempt may mend.
* `Cloud.tries_until_last`: how often anything is tried, and a request in particular, with what waits,
  and what comes of it.
-/

namespace InstanceInventory
set_option autoImplicit false
open Retry (Plays Tries concluded)

namespace Cloud
variable {α : Type} {r : Request} {collect : List Value → Except ShapeFault α}

/-! ## Attempts -/

/-- The provider's script after some attempts of a request. -/
def scriptAfter (r : Request) (provider : Script) (n : Nat) : Script :=
  (fun p => (drawn r p).2)^[n] provider

/-- What the attempt of a number comes to, counted from one. -/
def outcomeAt (r : Request) (collect : List Value → Except ShapeFault α) (provider : Script)
    (n : Nat) : Except Fault (Except Failure α) :=
  attempted collect (drawn r (scriptAfter r provider (n - 1))).1

/-- A request was made a number of times. -/
def Requested (r : Request) (provider : Script) (calls : List Call) (n : Nat) (s : Session) : Prop :=
  s.provider = scriptAfter r provider n ∧ s.made = List.replicate n (.request r) ++ calls

theorem outcome_attempt (s : Session) :
    (Client.attempt r collect).outcome s =
      (attempted collect (drawn r s.provider).1, requested r s) := by
  refine (Action.Meets.outcome (P := fun outcome s' => attempted collect (drawn r s.provider).1 =
    outcome ∧ s' = requested r s) (Client.meets_attempt r collect s)).elim fun h h' => ?_
  exact Prod.ext h.symm h'

theorem plays_attempt (provider : Script) (calls : List Call) :
    Plays (Client.attempt r collect) (outcomeAt r collect provider) (Requested r provider calls) where
  outcome n s hs := by
    rw [outcome_attempt, hs.1]
    rfl
  counted n s hs := by
    rw [outcome_attempt]
    constructor
    · show (drawn r s.provider).2 = scriptAfter r provider (n + 1)
      rw [hs.1, scriptAfter, scriptAfter, Function.iterate_succ_apply']
    · show Call.request r :: s.made = _
      rw [hs.2]
      rfl
  unwaited n s _ := by
    rw [outcome_attempt]
    rfl
  told n s items waits hs := hs

/-! ## Failures -/

/-- What a request comes to: a failure of the provider is reported with what the request is for, and
everything else stays as it is. -/
def reported (r : Request) : Except Fault (Except Failure α) → Except Fault α
  | .ok (.ok v) => .ok v
  | .ok (.error f) =>
    .error (.plain .provider ("Failed to " ++ r.purpose ++ ": " ++ f.message))
  | .error f => .error f

/-- A note shows something at most. -/
theorem meets_note (text : String) (s : Session) :
    (Action.note text).Meets s (fun _ s' => ∃ items, s' = { s with shown := items })
      fun _ _ => False := by
  unfold Action.note
  refine Action.meets_bind.2 (Action.meets_get.2 ?_)
  split
  · exact (Action.meets_modify _).2 ⟨_, rfl⟩
  · exact (Action.meets_pure _).2 ⟨_, rfl⟩

theorem tries_call {attempts base : Int} (hbase : 0 ≤ base) (region : String)
    (profile : Option String) (provider : Script) (calls : List Call) :
    Tries attempts base judge (outcomeAt r collect provider) (Requested r provider calls)
      (Client.call ⟨region, profile, ⟨attempts, .int base⟩⟩ r collect)
      fun n => reported r
        (concluded ⟨attempts, .int base⟩ judge n (outcomeAt r collect provider n)) := by
  refine Retry.tries_of_meets fun s n hs hlast hwaits => ?_
  unfold Client.call
  refine Action.meets_bind.2 ((meets_note _ s).imp ?_ fun _ _ => False.elim)
  rintro ⟨⟩ _ ⟨items, rfl⟩
  have hs' : Requested r provider calls 0 { s with shown := items } := hs
  refine Action.meets_bind.2 ((Retry.meets_run (plays_attempt provider calls) hbase hlast hwaits hs').imp
    ?_ ?_)
  · rintro (f | v) t ⟨hresult, ht⟩
    · refine (Action.meets_fail _ _).2 ?_
      rw [hresult]
      exact ⟨rfl, ht⟩
    · refine (Action.meets_pure _).2 ?_
      rw [hresult]
      exact ⟨rfl, ht⟩
  · rintro f t ⟨hresult, ht⟩
    rw [hresult]
    exact ⟨rfl, ht⟩

end Cloud
end InstanceInventory
