import InstanceInventory.Operation
import InstanceInventory.Proofs.Process
import InstanceInventory.Proofs.Store

/-! # Operations where nobody else is at work

* `Operation.alone_meets`: what an operation comes to follows from what its three parts come to.
-/

namespace InstanceInventory
set_option autoImplicit false
open InstanceInventory.Action (Meets meets_bind meets_pure)
variable {s : Session}

namespace Operation

/-- What an operation comes to follows from what is done before the lock is taken, under the lock and
after it is given back. -/
theorem alone_meets {op : Operation} {ok : Session → Prop} {bad : Fault → Session → Prop}
    {mid : Option op.Plan → Session → Prop} (hbefore : op.before.alone.Meets s mid bad)
    (hnone : ∀ s', mid none s' → ok s')
    (hlock : ∀ plan s' f t, mid (some plan) s' →
      Session.Did {s'.site op.store.lockPath} [] s' t → op.store.Bars t f → bad f t)
    (hunder : ∀ plan s' t, mid (some plan) s' → op.store.Locked s' t →
      (op.under plan).alone.Meets t
        (fun o u => (op.after plan o).Meets { u with holdsLock := false } (fun _ => ok) bad)
        fun f u => bad f { u with holdsLock := false }) :
    op.alone.Meets s (fun _ => ok) bad := by
  unfold alone
  refine hbefore.bind fun plan s' hs' => ?_
  cases plan with
  | none => exact (meets_pure _).2 (hnone s' hs')
  | some plan =>
    refine meets_bind.2 (Store.meets_withLock.2 ?_)
    exact (op.store.acquire_meets s').imp (fun _ t ht => hunder plan s' t hs' ht)
      fun f t ht => hlock plan s' f t hs' ht.1 ht.2

end Operation
end InstanceInventory
