import InstanceInventory.Proofs.Action.Meets
import InstanceInventory.Proofs.Number.Range
import InstanceInventory.Retry
import Mathlib.Order.Bounds.Basic

/-! # How often something is tried

* `Retry.Plays`: an action comes to the outcomes of a sequence, one after the other.
* `Retry.Policy.IsLast`: the number of the attempt after which no other follows.
* `Retry.meets_runFrom_succ`: what one attempt can lead to.
* `Retry.meets_runFrom`: what is tried ends after that attempt, with the waits between the attempts
  and with what the last one came to.
* `Retry.meets_run_passing`: whatever the waits are, what is tried comes to the outcome of an attempt
  before which there are only failures that another attempt may mend.
* `Retry.Tries`: the same of anything that tries with waits of doubling length; `tries_run`.
-/

namespace InstanceInventory.Retry
set_option autoImplicit false
variable {ε α β : Type} {p : Policy} {judge : Judge ε} {description : String}
variable {act : Action (Except ε α)} {outcomes : Nat → Except Fault (Except ε α)}
variable {made : Nat → Session → Prop}

/-! ## Attempts -/

/-- An action comes to the outcomes of a sequence, counted from one. `made n` says of a session that
the action was done `n` times in it; what is told and the waits between the attempts do not matter
for that, and the action itself does not wait. -/
structure Plays (act : Action α) (outcomes : Nat → Except Fault α) (made : Nat → Session → Prop) :
    Prop where
  outcome : ∀ n s, made n s → (act.outcome s).1 = outcomes (n + 1)
  counted : ∀ n s, made n s → made (n + 1) (act.outcome s).2
  unwaited : ∀ n s, made n s → (act.outcome s).2.waited = s.waited
  told : ∀ n s items waits, made n s → made n { s with shown := items, waited := waits }

/-- No attempt follows an outcome: it is a success, a fault, or a failure of which it is not known
that another attempt may mend it. -/
def Judge.Settles (judge : Judge ε) : Except Fault (Except ε α) → Prop
  | .ok (.error e) => judge.isTransient e ≠ .ok true
  | _ => True

/-- An attempt is the last one: it is the first whose outcome settles the matter or that is not
followed by another as there were enough. -/
def Policy.IsLast (p : Policy) (judge : Judge ε) (outcomes : Nat → Except Fault (Except ε α))
    (n : Nat) : Prop :=
  IsLeast {k | 1 ≤ k ∧ (judge.Settles (outcomes k) ∨ p.attempts ≤ k)} n

/-- What is made of the outcome of the last attempt: the outcome itself, unless there might be
another attempt and it cannot be told whether it may mend the failure. -/
def concluded (p : Policy) (judge : Judge ε) (n : Nat) :
    Except Fault (Except ε α) → Except Fault (Except ε α)
  | .ok (.error e) =>
    match judge.isTransient e with
    | .error f => if p.attempts ≤ n then .ok (.error e) else .error (.shape f)
    | .ok _ => .ok (.error e)
  | outcome => outcome

/-- Where there were enough attempts, the outcome of the last one is passed on as it is. -/
theorem concluded_of_le {n : Nat} (h : p.attempts ≤ n) (outcome : Except Fault (Except ε α)) :
    concluded p judge n outcome = outcome := by
  unfold concluded
  split
  · split
    · exact if_pos h
    · rfl
  · rfl

theorem exists_isLast (p : Policy) (judge : Judge ε)
    (outcomes : Nat → Except Fault (Except ε α)) : ∃ n, p.IsLast judge outcomes n := by
  classical
  have hend : ∃ k : Nat, 1 ≤ k ∧ (judge.Settles (outcomes k) ∨ p.attempts ≤ k) :=
    ⟨p.attempts.toNat + 1, by omega, .inr (by omega)⟩
  exact ⟨Nat.find hend, Nat.find_spec hend, fun _ hk => Nat.find_min' hend hk⟩

theorem Policy.IsLast.eq_succ {n k : Nat} (h : p.IsLast judge outcomes n) (hk : k < n)
    (hend : judge.Settles (outcomes (k + 1)) ∨ p.attempts ≤ (k + 1 : Nat)) : n = k + 1 :=
  Nat.le_antisymm (h.2 ⟨Nat.le_add_left 1 k, hend⟩) hk

theorem Policy.IsLast.succ_lt {n k : Nat} (h : p.IsLast judge outcomes n) (hk : k < n)
    (hsettles : ¬ judge.Settles (outcomes (k + 1))) (hattempts : (k + 1 : Nat) < p.attempts) :
    k + 1 < n := by
  refine lt_of_le_of_ne hk ?_
  rintro rfl
  obtain hend | hend := h.1.2
  · exact hsettles hend
  · omega

theorem Plays.meets (h : Plays act outcomes made) {n : Nat} {s : Session} (hs : made n s) :
    act.Meets s
      (fun a s' => outcomes (n + 1) = .ok a ∧ made (n + 1) s' ∧ s'.waited = s.waited)
      fun f s' => outcomes (n + 1) = .error f ∧ made (n + 1) s' ∧ s'.waited = s.waited := by
  have houtcome := h.outcome n s hs
  have hcounted := h.counted n s hs
  have hunwaited := h.unwaited n s hs
  refine (Action.meets_outcome act s).imp (fun a s' ha => ?_) fun f s' hf => ?_
  · rw [ha] at houtcome hcounted hunwaited
    exact ⟨houtcome.symm, hcounted, hunwaited⟩
  · rw [hf] at houtcome hcounted hunwaited
    exact ⟨houtcome.symm, hcounted, hunwaited⟩

/-! ## Runs -/

/-- A wait that can be told is kept. -/
theorem meets_pause {wording : String} {attempt : Nat} {wait : Number} {s : Session}
    {ok : Unit → Session → Prop} {bad : Fault → Session → Prop}
    (hdelay : delay? p.baseDelay attempt = some wait) (htold : wait.toDouble? ≠ none)
    (h : ∀ items, ok () { s with shown := items, waited := wait :: s.waited }) :
    (pause p description wording attempt).Meets s ok bad := by
  obtain ⟨d, hd⟩ := Option.ne_none_iff_exists'.1 htold
  simp only [pause, hdelay, hd]
  simp only [Action.warn, Action.status, Action.tell, Action.display, Action.meets_bind,
    Action.meets_modify]
  exact h _

/-- What an attempt before the last one can lead to: its outcome is passed on, or it is a failure that
cannot be judged, or there is a wait before the next attempt. -/
theorem meets_runFrom_succ (h : Plays act outcomes made) {k retries : Nat} {s : Session} (hs : made k s)
    {ok : Except ε α → Session → Prop} {bad : Fault → Session → Prop}
    (hfault : ∀ f s', outcomes (k + 1) = .error f → made (k + 1) s' → s'.waited = s.waited → bad f s')
    (hend : ∀ a s', outcomes (k + 1) = .ok a →
      (∀ e, a = .error e → judge.isTransient e = .ok false) →
        made (k + 1) s' → s'.waited = s.waited → ok a s')
    (hjudge : ∀ e f s', outcomes (k + 1) = .ok (.error e) → judge.isTransient e = .error f →
      made (k + 1) s' → s'.waited = s.waited → bad (.shape f) s')
    (hagain : ∀ e s', outcomes (k + 1) = .ok (.error e) → judge.isTransient e = .ok true →
      made (k + 1) s' → s'.waited = s.waited →
        (pause p description (judge.wording e) k).Meets s'
          (fun _ t => (runFrom p judge description act (k + 1) retries).Meets t ok bad) bad) :
    (runFrom p judge description act k (retries + 1)).Meets s ok bad := by
  unfold runFrom
  refine Action.meets_bind.2 ((h.meets hs).imp ?_ fun f s' hf => hfault f s' hf.1 hf.2.1 hf.2.2)
  rintro (e | a) s' ⟨ha, hmade, hwaited⟩
  · refine Action.meets_bind.2 (Action.meets_ofShape.2 ⟨fun transient htransient => ?_,
      fun f hf => hjudge e f s' ha hf hmade hwaited⟩)
    cases transient with
    | false =>
      refine (Action.meets_pure _).2 (hend _ _ ha (fun e' he => ?_) hmade hwaited)
      cases he
      exact htransient
    | true => exact Action.meets_bind.2 (hagain e s' ha htransient hmade hwaited)
  · exact (Action.meets_pure _).2 (hend _ _ ha (fun e he => nomatch he) hmade hwaited)

/-- Between two sessions the attempts after those of a number were made, up to the one of another
number, with a wait after each of them but the last. -/
def Tried (made : Nat → Session → Prop) (wait : Nat → Number) (k n : Nat) (s s' : Session) : Prop :=
  made n s' ∧ s'.waits = s.waits ++ (List.range' k (n - 1 - k)).map wait

theorem Tried.single {wait : Nat → Number} {k : Nat} {s s' : Session} (hmade : made (k + 1) s')
    (hwaited : s'.waited = s.waited) : Tried made wait k (k + 1) s s' := by
  refine ⟨hmade, ?_⟩
  simp [Session.waits, hwaited]

theorem Tried.cons {wait : Nat → Number} {k n : Nat} {s s' t : Session} (hk : k + 1 < n)
    (hwaited : s'.waited = wait k :: s.waited) (h : Tried made wait (k + 1) n s' t) :
    Tried made wait k n s t := by
  obtain ⟨m, hm⟩ : ∃ m, n - 1 - k = m + 1 := ⟨n - 2 - k, by omega⟩
  have hrest : n - 1 - (k + 1) = m := by omega
  refine ⟨h.1, ?_⟩
  rw [h.2, hm, hrest, List.range'_succ]
  simp [Session.waits, hwaited]

/-- A run before the attempt of the number `k + 1` comes to what the last attempt is concluded with,
after the waits between the attempts. -/
theorem meets_runFrom (h : Plays act outcomes made) {wait : Nat → Number} {n : Nat}
    (hlast : p.IsLast judge outcomes n)
    (hwait : ∀ k, k + 1 < n → delay? p.baseDelay k = some (wait k) ∧ (wait k).toDouble? ≠ none)
    {k retries : Nat} (hk : k < n) (hretries : retries = (p.attempts - 1 - k).toNat)
    {s : Session} (hs : made k s) :
    (runFrom p judge description act k retries).Meets s
      (fun a s' => concluded p judge n (outcomes n) = .ok a ∧ Tried made wait k n s s')
      fun f s' => concluded p judge n (outcomes n) = .error f ∧ Tried made wait k n s s' := by
  -- By the retries that are left: as they go down the number of the attempt goes up to the last one.
  induction retries generalizing k s with
  | zero =>
    obtain rfl := hlast.eq_succ hk (.inr (by omega))
    rw [concluded_of_le (by omega)]
    refine (h.meets hs).imp ?_ ?_
    · rintro a s' ⟨ha, hmade, hwaited⟩
      exact ⟨ha, .single hmade hwaited⟩
    · rintro f s' ⟨hf, hmade, hwaited⟩
      exact ⟨hf, .single hmade hwaited⟩
  | succ retries ih =>
    have hmore : ¬ p.attempts ≤ (k + 1 : Nat) := by omega
    refine meets_runFrom_succ h hs ?_ ?_ ?_ ?_
    · intro f s' hf hmade hwaited
      obtain rfl := hlast.eq_succ hk (.inl (by rw [hf]; trivial))
      rw [hf]
      exact ⟨rfl, .single hmade hwaited⟩
    · intro a s' ha hfinal hmade hwaited
      cases a with
      | ok a =>
        obtain rfl := hlast.eq_succ hk (.inl (by rw [ha]; trivial))
        rw [ha]
        exact ⟨rfl, .single hmade hwaited⟩
      | error e =>
        have hjudge := hfinal e rfl
        obtain rfl := hlast.eq_succ hk (.inl (by simp [ha, Judge.Settles, hjudge]))
        exact ⟨by simp [ha, concluded, hjudge], .single hmade hwaited⟩
    · intro e f s' ha hjudge hmade hwaited
      obtain rfl := hlast.eq_succ hk (.inl (by simp [ha, Judge.Settles, hjudge]))
      refine ⟨?_, .single hmade hwaited⟩
      simp only [ha, concluded, hjudge, if_neg hmore]
    · intro e s' ha hjudge hmade hwaited
      have hnext := hlast.succ_lt hk (by simp [ha, Judge.Settles, hjudge]) (by omega)
      obtain ⟨hdelay, htold⟩ := hwait k hnext
      refine meets_pause hdelay htold fun items => (ih hnext (by omega) (h.told _ _ _ _ hmade)).imp ?_ ?_
      · rintro b t ⟨hb, ht⟩
        exact ⟨hb, ht.cons hnext (by rw [hwaited])⟩
      · rintro f t ⟨hf, ht⟩
        exact ⟨hf, ht.cons hnext (by rw [hwaited])⟩

/-! ## Any waits -/

/-- After the attempt of a number come failures that another attempt may mend, up to the attempt of
another number. -/
def Passing (judge : Judge ε) (outcomes : Nat → Except Fault (Except ε α)) (k n : Nat) : Prop :=
  k < n ∧ ∀ j, k < j → j < n → ∃ e, outcomes j = .ok (.error e) ∧ judge.isTransient e = .ok true

theorem Passing.single (judge : Judge ε) (outcomes : Nat → Except Fault (Except ε α)) (k : Nat) :
    Passing judge outcomes k (k + 1) :=
  ⟨Nat.lt_succ_self k, fun j hk hj => by omega⟩

theorem Passing.cons {k n : Nat} {e : ε} (h : Passing judge outcomes (k + 1) n)
    (houtcome : outcomes (k + 1) = .ok (.error e)) (htransient : judge.isTransient e = .ok true) :
    Passing judge outcomes k n := by
  refine ⟨Nat.lt_of_succ_lt h.1, fun j hk hj => ?_⟩
  rcases Nat.eq_or_lt_of_le hk with rfl | hlt
  · exact ⟨e, houtcome, htransient⟩
  · exact h.2 j hlt hj

/-- The attempt before which there are only failures that another attempt may mend is the last one, if
it settles the matter and is still made. -/
theorem Passing.isLast {n : Nat} (h : Passing judge outcomes 0 n)
    (hsettles : judge.Settles (outcomes n)) (hattempts : n = 1 ∨ n ≤ p.attempts) :
    p.IsLast judge outcomes n := by
  refine ⟨⟨h.1, .inl hsettles⟩, fun k ⟨hk, hend⟩ => Nat.le_of_not_lt fun hlt => ?_⟩
  obtain ⟨e, houtcome, htransient⟩ := h.2 k hk hlt
  rcases hend with hend | hend
  · rw [houtcome] at hend
    exact hend htransient
  · omega

/-- A wait changes nothing but what is told and waited for. -/
theorem meets_pause_any (p : Policy) (description wording : String) (attempt : Nat) (s : Session) :
    (pause p description wording attempt).Meets s
      (fun _ s' => ∃ items waits, s' = { s with shown := items, waited := waits })
      fun _ _ => True := by
  cases hdelay : delay? p.baseDelay attempt with
  | none => simp only [pause, hdelay, Action.meets_throw]
  | some wait =>
    cases hd : wait.toDouble? with
    | none =>
      simp only [pause, hdelay, hd, Action.warn, Action.tell, Action.display, Action.meets_bind,
        Action.meets_modify, Action.meets_throw]
    | some d =>
      have htold : wait.toDouble? ≠ none := by rw [hd]; exact Option.some_ne_none d
      exact meets_pause hdelay htold fun items => ⟨items, _, rfl⟩

/-- A run after the attempt of a number comes to the outcome of a later one, before which there are only
failures that another attempt may mend. -/
theorem meets_runFrom_passing (h : Plays act outcomes made) {k : Nat} {s : Session} (hs : made k s)
    (retries : Nat) :
    (runFrom p judge description act k retries).Meets s
      (fun a s' => ∃ n, Passing judge outcomes k n ∧ outcomes n = .ok a ∧ made n s')
      fun _ _ => True := by
  induction retries generalizing k s with
  | zero =>
    refine (h.meets hs).imp ?_ fun _ _ _ => trivial
    rintro a s' ⟨ha, hmade, -⟩
    exact ⟨k + 1, .single .., ha, hmade⟩
  | succ retries ih =>
    refine meets_runFrom_succ h hs (fun _ _ _ _ _ => trivial) ?_ (fun _ _ _ _ _ _ _ => trivial) ?_
    · intro a s' ha _ hmade _
      exact ⟨k + 1, .single .., ha, hmade⟩
    · intro e s' ha hjudge hmade _
      refine (meets_pause_any ..).imp ?_ fun _ _ _ => trivial
      rintro ⟨⟩ t ⟨items, waits, rfl⟩
      refine (ih (h.told _ _ _ _ hmade)).imp ?_ fun _ _ _ => trivial
      rintro b t ⟨n, hn, hb⟩
      exact ⟨n, hn.cons ha hjudge, hb⟩

theorem meets_run_passing (h : Plays act outcomes made) {s : Session} (hs : made 0 s) :
    (run p judge description act).Meets s
      (fun a s' => ∃ n, Passing judge outcomes 0 n ∧ outcomes n = .ok a ∧ made n s')
      fun _ _ => True :=
  meets_runFrom_passing h hs p.retries

/-! ## Doubling waits -/

/-- An integer wait, twice as long after each further attempt. -/
def doubled (base : Int) (k : Nat) : Number :=
  .int (base * 2 ^ k)

/-- Something that has not begun comes to a result of its last attempt, after waits of doubling length
between the attempts, as long as these can be told. -/
def Tries (attempts base : Int) (judge : Judge ε) (outcomes : Nat → Except Fault (Except ε α))
    (made : Nat → Session → Prop) (x : Action β) (result : Nat → Except Fault β) : Prop :=
  ∀ s, made 0 s → ∃ n, Policy.IsLast ⟨attempts, .int base⟩ judge outcomes n ∧
    ((∀ k, k + 1 < n → base * 2 ^ k < 2 ^ 1023) →
      (x.outcome s).1 = result n ∧ made n (x.outcome s).2 ∧
        (x.outcome s).2.waits = s.waits ++ (List.range (n - 1)).map (doubled base))

theorem toDouble?_doubled {base : Int} {k : Nat} (hbase : 0 ≤ base)
    (hlt : base * 2 ^ k < 2 ^ 1023) : (doubled base k).toDouble? ≠ none :=
  Double.ofInt?_ne_none (Int.mul_nonneg hbase (Int.pow_nonneg (by decide))) hlt

theorem delay?_int (base : Int) (k : Nat) : delay? (.int base) k = some (doubled base k) := by
  rw [delay?, doubled]
  congr

theorem meets_run {attempts base : Int} (h : Plays act outcomes made) (hbase : 0 ≤ base) {n : Nat}
    (hlast : Policy.IsLast ⟨attempts, .int base⟩ judge outcomes n)
    (hwaits : ∀ k, k + 1 < n → base * 2 ^ k < 2 ^ 1023) {s : Session} (hs : made 0 s) :
    (run ⟨attempts, .int base⟩ judge description act).Meets s
      (fun a s' => concluded ⟨attempts, .int base⟩ judge n (outcomes n) = .ok a ∧
        Tried made (doubled base) 0 n s s')
      fun f s' => concluded ⟨attempts, .int base⟩ judge n (outcomes n) = .error f ∧
        Tried made (doubled base) 0 n s s' :=
  meets_runFrom h hlast
    (fun k hk => ⟨delay?_int base k, toDouble?_doubled hbase (hwaits k hk)⟩) hlast.1.1
    (by simp [Policy.retries]) hs

theorem tries_of_meets {attempts base : Int} {x : Action β} {result : Nat → Except Fault β}
    (h : ∀ s n, made 0 s → Policy.IsLast ⟨attempts, .int base⟩ judge outcomes n →
      (∀ k, k + 1 < n → base * 2 ^ k < 2 ^ 1023) →
      x.Meets s (fun a s' => result n = .ok a ∧ Tried made (doubled base) 0 n s s')
        fun f s' => result n = .error f ∧ Tried made (doubled base) 0 n s s') :
    Tries attempts base judge outcomes made x result := by
  intro s hs
  obtain ⟨n, hlast⟩ := exists_isLast ⟨attempts, .int base⟩ judge outcomes
  refine ⟨n, hlast, fun hwaits => ?_⟩
  obtain ⟨hresult, hmade, htold⟩ := Action.Meets.outcome
    (P := fun outcome s' => result n = outcome ∧ Tried made (doubled base) 0 n s s')
    (h s n hs hlast hwaits)
  rw [List.range_eq_range']
  exact ⟨hresult.symm, hmade, htold⟩

end InstanceInventory.Retry
