import InstanceInventory.Cloud.Inventory
import InstanceInventory.Proofs.Action.Meets

/-! # Attempts of requests

* `Cloud.drawn`: the next attempt of a request, with the provider's script after it.
* `Cloud.attempted`: what an attempt comes to.
* `Cloud.Client.meets_attempt`: a request comes to the attempt that is drawn for it, and nothing else
  is changed.
-/

namespace InstanceInventory.Cloud
set_option autoImplicit false
variable {α : Type} {r : Request} {collect : List Value → Except ShapeFault α}

/-- The next attempt of a request, and the provider's script after it. -/
def drawn (r : Request) (provider : Script) : Attempt × Script :=
  (provider.next? (r.operation, r.isPaged)).getD (.bare r, provider)

def requested (r : Request) (s : Session) : Session :=
  { s with provider := (drawn r s.provider).2, made := .request r :: s.made }

/-- What an attempt comes to: its failure, or what is collected of its pages; what cannot be
collected is a fault, whether the attempt fails or not. -/
def attempted (collect : List Value → Except ShapeFault α) (a : Attempt) :
    Except Fault (Except Failure α) :=
  match collect a.pages with
  | .error f => .error (.shape f)
  | .ok v =>
    match a.failure with
    | some f => .ok (.error f)
    | none => .ok (.ok v)

theorem attempted_eq_ok_iff {a : Attempt} {v : α} :
    attempted collect a = .ok (.ok v) ↔ a.failure = none ∧ collect a.pages = .ok v := by
  unfold attempted
  cases collect a.pages <;> cases a.failure <;> simp

theorem attempted_eq_error_iff {a : Attempt} {f : Failure} :
    attempted collect a = .ok (.error f) ↔ a.failure = some f ∧ ∃ v, collect a.pages = .ok v := by
  unfold attempted
  cases collect a.pages <;> cases a.failure <;> simp

theorem shape_of_attempted {a : Attempt} {f : Fault} (h : attempted collect a = .error f) :
    ∃ g, f = .shape g := by
  unfold attempted at h
  split at h
  · next g _ => exact ⟨g, (Except.error.inj h).symm⟩
  · split at h
    · cases h
    · cases h

namespace Client

theorem meets_attempt (r : Request) (collect : List Value → Except ShapeFault α) (s : Session) :
    (attempt r collect).Meets s
      (fun a s' => attempted collect (drawn r s.provider).1 = .ok a ∧ s' = requested r s)
      fun f s' => attempted collect (drawn r s.provider).1 = .error f ∧ s' = requested r s := by
  unfold attempt requested attempted drawn
  simp only [Action.meets_bind, Action.meets_get]
  generalize (s.provider.next? (r.operation, r.isPaged)).getD (.bare r, s.provider) = next
  obtain ⟨a, provider⟩ := next
  refine (Action.meets_set _).2 (Action.meets_ofShape.2 ⟨fun v hv => ?_, fun f hf => ?_⟩)
  · rw [hv]
    cases a.failure with
    | some f => simp
    | none => simp
  · simp [hf]

end Client
end InstanceInventory.Cloud
