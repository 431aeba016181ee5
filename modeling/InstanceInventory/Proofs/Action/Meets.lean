import InstanceInventory.Store

/-! # What actions come to

* `Action.Meets`: what an action comes to in a session satisfies one predicate as a value and another
  as a fault, each with the session after it.
* `Action.meets_bind` and the like: one rule for each way in which actions are put together.
* `Store.meets_withLock`: what is done under the lock is done between taking it and giving it back.
-/

namespace InstanceInventory
set_option autoImplicit false
namespace Action
variable {α β : Type} {s : Session} {ok : α → Session → Prop} {bad : Fault → Session → Prop}

/-- What an action comes to in a session: a value satisfies `ok` and a fault `bad`, each with the
session after it. -/
def Meets (act : Action α) (s : Session) (ok : α → Session → Prop)
    (bad : Fault → Session → Prop) : Prop :=
  match act.outcome s with
  | (.ok a, s') => ok a s'
  | (.error f, s') => bad f s'

theorem Meets.imp {act : Action α} {ok' : α → Session → Prop} {bad' : Fault → Session → Prop}
    (h : act.Meets s ok bad) (hok : ∀ a s', ok a s' → ok' a s')
    (hbad : ∀ f s', bad f s' → bad' f s') : act.Meets s ok' bad' := by
  unfold Meets at h ⊢
  split at h
  · exact hok _ _ h
  · exact hbad _ _ h

theorem Meets.imp_bad {act : Action α} {bad' : Fault → Session → Prop}
    (h : act.Meets s ok bad) (hbad : ∀ f s', bad f s' → bad' f s') : act.Meets s ok bad' :=
  h.imp (fun _ _ => id) hbad

theorem Meets.and {act : Action α} {ok' : α → Session → Prop} {bad' : Fault → Session → Prop}
    (h : act.Meets s ok bad) (h' : act.Meets s ok' bad') :
    act.Meets s (fun a s' => ok a s' ∧ ok' a s') fun f s' => bad f s' ∧ bad' f s' := by
  unfold Meets at *
  split at h
  · rename_i ho
    rw [ho] at h'
    exact ⟨h, h'⟩
  · rename_i ho
    rw [ho] at h'
    exact ⟨h, h'⟩

theorem meets_true (act : Action α) (s : Session) :
    act.Meets s (fun _ _ => True) fun _ _ => True := by
  unfold Meets
  rcases act.outcome s with ⟨_ | _, _⟩
  · trivial
  · trivial

theorem Meets.of_value {act : Action α} {a : α} {s' : Session} (h : act.Meets s ok bad)
    (ho : act.outcome s = (.ok a, s')) : ok a s' := by
  unfold Meets at h
  rw [ho] at h
  exact h

theorem Meets.of_fault {act : Action α} {f : Fault} {s' : Session} (h : act.Meets s ok bad)
    (ho : act.outcome s = (.error f, s')) : bad f s' := by
  unfold Meets at h
  rw [ho] at h
  exact h

/-- What holds of every value and every fault holds of what an action comes to. -/
theorem Meets.outcome {act : Action α} {P : Except Fault α → Session → Prop}
    (h : act.Meets s (fun a => P (.ok a)) fun f => P (.error f)) :
    P (act.outcome s).1 (act.outcome s).2 := by
  unfold Meets at h
  split at h
  · next ho => rwa [ho]
  · next ho => rwa [ho]

/-- An action meets what describes its outcome. -/
theorem meets_outcome (act : Action α) (s : Session) :
    act.Meets s (fun a s' => act.outcome s = (.ok a, s'))
      (fun f s' => act.outcome s = (.error f, s')) := by
  unfold Meets
  split
  · assumption
  · assumption

/-- What an action comes to, apart from the session after it. -/
theorem meets_result (act : Action α) (s : Session) :
    act.Meets s (fun a _ => (act.outcome s).1 = .ok a) fun f _ => (act.outcome s).1 = .error f :=
  (meets_outcome act s).imp (fun _ _ => congrArg Prod.fst) fun _ _ => congrArg Prod.fst

/-! ## Rules -/

@[simp] theorem meets_pure (a : α) : (pure a : Action α).Meets s ok bad ↔ ok a s := Iff.rfl

@[simp] theorem meets_throw (f : Fault) : (throw f : Action α).Meets s ok bad ↔ bad f s := Iff.rfl

@[simp] theorem meets_report (r : Report) :
    (report r : Action α).Meets s ok bad ↔ bad (.report r) s := Iff.rfl

@[simp] theorem meets_fail (kind : Report.Kind) (wording : String) :
    (fail kind wording : Action α).Meets s ok bad ↔ bad (.report (.plain kind wording)) s := Iff.rfl

@[simp] theorem meets_bind {x : Action β} {f : β → Action α} :
    (x >>= f).Meets s ok bad ↔ x.Meets s (fun b s' => (f b).Meets s' ok bad) bad := by
  have h : (x >>= f).outcome s = match x.outcome s with
      | (.ok b, s') => (f b).outcome s'
      | (.error e, s') => (.error e, s') := by
    show (match (x.outcome s) with | (r, s') => (ExceptT.bindCont f r).run s') = _
    rcases x.outcome s with ⟨_ | _, _⟩
    · rfl
    · rfl
  unfold Meets
  rw [h]
  rcases x.outcome s with ⟨_ | _, _⟩
  · rfl
  · rfl

@[simp] theorem meets_map {x : Action β} {f : β → α} :
    (f <$> x).Meets s ok bad ↔ x.Meets s (fun b s' => ok (f b) s') bad :=
  meets_bind

@[simp] theorem meets_get {ok : Session → Session → Prop} :
    (get : Action Session).Meets s ok bad ↔ ok s s := Iff.rfl

@[simp] theorem meets_set {ok : PUnit → Session → Prop} (t : Session) :
    (set t : Action PUnit).Meets s ok bad ↔ ok ⟨⟩ t := Iff.rfl

@[simp] theorem meets_modify {ok : PUnit → Session → Prop} (f : Session → Session) :
    (modify f : Action PUnit).Meets s ok bad ↔ ok ⟨⟩ (f s) := Iff.rfl

theorem Meets.bind {x : Action β} {f : β → Action α} {m : β → Session → Prop}
    (hx : x.Meets s m bad) (hf : ∀ b s', m b s' → (f b).Meets s' ok bad) :
    (x >>= f).Meets s ok bad :=
  meets_bind.2 (hx.imp hf fun _ _ => id)

@[simp] theorem meets_ofExcept {e : Except Fault α} :
    (ofExcept e).Meets s ok bad ↔ (∀ a, e = .ok a → ok a s) ∧ ∀ f, e = .error f → bad f s := by
  cases e with
  | ok a => simp [ofExcept]
  | error f => simp [ofExcept]

theorem meets_ofShape {e : Except ShapeFault α} :
    (ofShape e).Meets s ok bad ↔
      (∀ a, e = .ok a → ok a s) ∧ ∀ f, e = .error f → bad (.shape f) s := by
  cases e with
  | ok a =>
    have hpure : (ofShape (.ok a) : Action α) = pure a := rfl
    simp [hpure]
  | error f =>
    have hthrow : (ofShape (.error f) : Action α) = throw (.shape f) := rfl
    simp [hthrow]

@[simp] theorem meets_recover {act : Action α} {handle : Report → Action α} :
    (recover act handle).Meets s ok bad ↔
      act.Meets s ok fun f s' =>
        (∀ r, f = .report r → (handle r).Meets s' ok bad) ∧
          ((∀ r, f ≠ .report r) → bad f s') := by
  have hreport : ∀ r s', act s = (.error (.report r), s') →
      (recover act handle).outcome s = (handle r).outcome s' := by
    intro r s' h
    simp [recover, outcome, tryCatch, tryCatchThe, MonadExceptOf.tryCatch, ExceptT.tryCatch,
      ExceptT.run, ExceptT.mk, StateT.run, bind, StateT.bind, h]
  have hother : ∀ e s', act s = (e, s') → (∀ r, e ≠ .error (.report r)) →
      (recover act handle).outcome s = (e, s') := by
    intro e s' h he
    simp only [recover, outcome, tryCatch, tryCatchThe, MonadExceptOf.tryCatch, ExceptT.tryCatch,
      ExceptT.run, ExceptT.mk, StateT.run, bind, StateT.bind, h]
    rcases e with f | a
    · cases f with
      | report r => exact absurd rfl (he r)
      | _ => rfl
    · rfl
  unfold Meets
  rcases h : act.outcome s with ⟨f | a, s'⟩
  · cases f with
    | report r => simp [hreport r s' h]
    | _ => simp [hother _ s' h nofun]
  · simp [hother _ s' h nofun]

@[simp] theorem meets_observe {act : Action α} {ok : Except Fault α → Session → Prop} :
    act.observe.Meets s ok bad ↔
      act.Meets s (fun a s' => ok (.ok a) s') fun f s' => ok (.error f) s' := by
  have h : act.observe.outcome s = (.ok (act.outcome s).1, (act.outcome s).2) := rfl
  unfold Meets
  rw [h]
  rcases act.outcome s with ⟨_ | _, _⟩
  · rfl
  · rfl

@[simp] theorem meets_look (f : Session → α) : (look f).Meets s ok bad ↔ ok (f s) s := Iff.rfl

-- From here on an action is taken apart by the rules, never by running it.
attribute [irreducible] Meets

/-! ## Files -/

@[simp] theorem meets_read {f : Session → Except FileFault α} :
    (read f).Meets s ok bad ↔
      (∀ a, f s = .ok a → ok a s) ∧ ∀ e, f s = .error e → bad (.file e) s := by
  unfold read
  rw [meets_bind, meets_get]
  cases f s with
  | ok a => simp
  | error e => simp

@[simp] theorem meets_change {f : Session → Except FileFault Files.Tree}
    {ok : Unit → Session → Prop} :
    (change f).Meets s ok bad ↔
      (∀ files, f s = .ok files → ok () { s with files }) ∧
        ∀ e, f s = .error e → bad (.file e) s := by
  unfold change
  simp

end Action

/-! ## The lock -/

namespace Store
open InstanceInventory.Action
variable {α : Type} {s : Session} {ok : α → Session → Prop} {bad : Fault → Session → Prop}

theorem meets_withLock {st : Store} {act : Action α} :
    (st.withLock act).Meets s ok bad ↔
      st.acquire.Meets s (fun _ s' => act.Meets s'
        (fun a s'' => ok a { s'' with holdsLock := false })
        fun f s'' => bad f { s'' with holdsLock := false }) bad := by
  simp [withLock, release]

end Store
end InstanceInventory
