import InstanceInventory.Proofs.Cloud.Retried
import Mathlib.Data.List.Forall2

/-! # Listings that come in pages

* `Cloud.HasItems`, `Cloud.InstanceRows`: items, and rows of instances, part by part.
* `Cloud.Delivered`: the items of the attempt of a request that runs to the end.
* `Cloud.listings_whole`: a listing has the items of that attempt and of no other, each with its row.
-/

namespace InstanceInventory
set_option autoImplicit false

namespace Cloud
variable {α : Type} {r : Request} {field : String} {vs items : List Value} {provider : Script}

/-! ## Items and rows -/

/-- There is one row for each value, in order. -/
def RowEach (row : Value → Except ShapeFault α) (vs : List Value) (rows : List α) : Prop :=
  List.Forall₂ (fun v row' => row v = .ok row') vs rows

/-- Parts of a list, one for each value, stand in it one after the other. -/
def Concatenated (part : Value → List α → Prop) (vs : List Value) (whole : List α) : Prop :=
  ∃ parts, List.Forall₂ part vs parts ∧ whole = parts.flatten

/-- The items in a field of several values, one after the other. -/
def HasItems (field : String) : List Value → List Value → Prop :=
  Concatenated fun v part => v.fieldItems field = .ok part

/-- There is one row for each instance of each reservation, in order. -/
def InstanceRows : List Value → List Row → Prop :=
  Concatenated fun v rows => ∃ instances, v.fieldItems "Instances" = .ok instances ∧
    RowEach Client.instanceRow instances rows

theorem mapM_eq_ok_iff {f : Value → Except ShapeFault α} {rows : List α} :
    vs.mapM f = .ok rows ↔ RowEach f vs rows := by
  unfold RowEach
  induction vs generalizing rows with
  | nil => simp [pure, Except.pure, eq_comm]
  | cons v vs ih =>
    rw [List.mapM_cons, List.forall₂_cons_left_iff]
    cases hrow : f v with
    | error e => simp [bind, Except.bind]
    | ok row =>
      cases hrest : vs.mapM f with
      | error e => simp [bind, Except.bind, ← ih, hrest]
      | ok rest => simp [bind, Except.bind, pure, Except.pure, ← ih, hrest, eq_comm]

/-- What reads values one after the other, and puts together what it makes of each. -/
theorem concatenated_iff {all : List Value → Except ShapeFault (List α)}
    (make : Value → Except ShapeFault (List α)) {part : Value → List α → Prop} {whole : List α}
    (hnil : all [] = .ok [])
    (hcons : ∀ v vs, all (v :: vs) = do return (← make v) ++ (← all vs))
    (hmake : ∀ v p, make v = .ok p ↔ part v p) : all vs = .ok whole ↔ Concatenated part vs whole := by
  have hall : all vs = (vs.mapM make).map List.flatten := by
    induction vs with
    | nil => exact hnil
    | cons v vs ih =>
      rw [hcons, List.mapM_cons, ih]
      cases make v with
      | error e => rfl
      | ok p => cases vs.mapM make <;> rfl
  have hparts : ∀ parts, vs.mapM make = .ok parts ↔ List.Forall₂ part vs parts := by
    intro parts
    rw [mapM_eq_ok_iff, RowEach]
    simp only [hmake]
  rw [hall, Concatenated]
  simp only [← hparts]
  cases vs.mapM make with
  | error e => simp [Except.map]
  | ok parts => simp [Except.map, eq_comm]

theorem Client.pageItems_eq_ok_iff : pageItems field vs = .ok items ↔ HasItems field vs items :=
  concatenated_iff _ rfl (fun _ _ => rfl) fun _ _ => Iff.rfl

theorem Client.instanceRows_eq_ok_iff {rows : List Row} :
    instanceRows vs = .ok rows ↔ InstanceRows vs rows := by
  refine concatenated_iff (fun v => do (← v.fieldItems "Instances").mapM instanceRow) rfl
    (fun v vs => ?_) fun v rows => ?_
  · rw [instanceRows]
    cases v.fieldItems "Instances" <;> rfl
  · cases v.fieldItems "Instances" with
    | error e => simp [bind, Except.bind]
    | ok instances => simp [bind, Except.bind, mapM_eq_ok_iff]

/-! ## Requests -/

/-- The attempt of a number, counted from one. -/
def attemptAt (r : Request) (provider : Script) (n : Nat) : Attempt :=
  (drawn r (scriptAfter r provider (n - 1))).1

/-- The items that the attempt of a number delivers: it runs to the end, and those before it fail in
ways that another attempt may mend, each after pages with some items that nothing is made of. -/
structure Delivered (r : Request) (field : String) (provider : Script) (n : Nat)
    (items : List Value) : Prop where
  first : 1 ≤ n
  failed : ∀ k, 1 ≤ k → k < n → ∃ f dropped, (attemptAt r provider k).failure = some f ∧
    f.isTransient = .ok true ∧ HasItems field (attemptAt r provider k).pages dropped
  ended : (attemptAt r provider n).failure = none
  whole : HasItems field (attemptAt r provider n).pages items

/-- The items of a request are delivered by the attempt whose outcome is passed on. -/
theorem delivered_iff {n : Nat} :
    Delivered r field provider n items ↔
      Retry.Passing judge (outcomeAt r (Client.pageItems field) provider) 0 n ∧
        outcomeAt r (Client.pageItems field) provider n = .ok (.ok items) := by
  simp only [Retry.Passing, outcomeAt, attempted_eq_error_iff, attempted_eq_ok_iff,
    Client.pageItems_eq_ok_iff]
  constructor
  · rintro ⟨first, failed, ended, whole⟩
    refine ⟨⟨first, fun k hk hlt => ?_⟩, ended, whole⟩
    obtain ⟨f, dropped, hfailure, htransient, hdropped⟩ := failed k hk hlt
    exact ⟨f, ⟨hfailure, dropped, hdropped⟩, htransient⟩
  · rintro ⟨⟨first, failed⟩, ended, whole⟩
    refine ⟨first, fun k hk hlt => ?_, ended, whole⟩
    obtain ⟨f, ⟨hfailure, dropped, hdropped⟩, htransient⟩ := failed k hk hlt
    exact ⟨f, dropped, hfailure, htransient, hdropped⟩

namespace Client

theorem meets_call {collect : List Value → Except ShapeFault α} (c : Client) (s : Session) :
    (c.call r collect).Meets s
      (fun v s' => ∃ n, Retry.Passing judge (outcomeAt r collect s.provider) 0 n ∧
        outcomeAt r collect s.provider n = .ok (.ok v) ∧ Requested r s.provider s.made n s')
      fun _ _ => True := by
  unfold call
  refine Action.meets_bind.2 ((meets_note _ s).imp ?_ fun _ _ => False.elim)
  rintro ⟨⟩ _ ⟨shown, rfl⟩
  have hnone : Requested r s.provider s.made 0 { s with shown } := ⟨rfl, rfl⟩
  refine Action.meets_bind.2 ((Retry.meets_run_passing (plays_attempt s.provider s.made) hnone).imp
    ?_ fun _ _ _ => trivial)
  rintro (f | v) s' ⟨n, hpassing, houtcome, hmade⟩
  · exact (Action.meets_fail _ _).2 trivial
  · exact (Action.meets_pure _).2 ⟨n, hpassing, houtcome, hmade⟩

theorem meets_items (c : Client) (r : Request) (field : String) (s : Session) :
    (c.items r field).Meets s
      (fun items s' => ∃ n, Delivered r field s.provider n items ∧
        s'.made = List.replicate n (.request r) ++ s.made)
      fun _ _ => True := by
  refine (c.meets_call s).imp ?_ fun _ _ _ => trivial
  rintro items s' ⟨n, hpassing, houtcome, hmade⟩
  exact ⟨n, delivered_iff.2 ⟨hpassing, houtcome⟩, hmade.2⟩

/-- Items that are delivered are what a request comes to, if the attempt that delivers them is still
made. -/
theorem outcome_items {c : Client} {base : Int} {s : Session} {n : Nat}
    (hpolicy : c.policy.baseDelay = .int base) (hbase : 0 ≤ base)
    (h : Delivered r field s.provider n items) (hattempts : n = 1 ∨ n ≤ c.policy.attempts)
    (hwaits : ∀ k, k + 1 < n → base * 2 ^ k < 2 ^ 1023) :
    ((c.items r field).outcome s).1 = .ok items := by
  obtain ⟨region, profile, attempts, delay⟩ := c
  cases hpolicy
  obtain ⟨hpassing, houtcome⟩ := delivered_iff.1 h
  have htries : Retry.Tries attempts base judge (outcomeAt r (pageItems field) s.provider) _ _ _ :=
    tries_call hbase region profile s.provider s.made
  obtain ⟨m, hm, hresult⟩ := htries s ⟨rfl, rfl⟩
  obtain rfl : m = n := hm.unique (hpassing.isLast (by rw [houtcome]; trivial) hattempts)
  refine (hresult hwaits).1.trans ?_
  rw [houtcome]
  rfl

end Client

/-! ## Listings -/

/-- What is listed are the rows of the items that are delivered for a request; the listing fails only
as the request fails, or where these items have no such rows. -/
def Lists (c : Client) (r : Request) (field : String) (made : List Value → List α → Prop)
    (x : Action (List α)) : Prop :=
  ∀ s, x.Meets s
    (fun rows _ => ∃ n items, Delivered r field s.provider n items ∧ made items rows)
    fun f _ => ((c.items r field).outcome s).1 = .error f ∨
      ∃ n items, Delivered r field s.provider n items ∧ ∀ rows, ¬ made items rows

theorem lists_of_items (c : Client) (r : Request) (field : String)
    {make : List Value → Except ShapeFault (List α)} {made : List Value → List α → Prop}
    (hmake : ∀ items rows, make items = .ok rows ↔ made items rows) :
    Lists c r field made (do let items ← c.items r field; Action.ofShape (make items)) := by
  intro s
  have hitems := (c.meets_items r field s).and (Action.meets_result (c.items r field) s)
  refine Action.meets_bind.2 (hitems.imp ?_ fun f _ hf => .inl hf.2)
  rintro items s' ⟨⟨n, hdelivered, -⟩, -⟩
  refine Action.meets_ofShape.2 ⟨fun rows hrows => ⟨n, items, hdelivered, (hmake _ _).1 hrows⟩,
    fun f hf => .inr ⟨n, items, hdelivered, fun rows hrows => ?_⟩⟩
  rw [(hmake _ _).2 hrows] at hf
  cases hf

theorem lists_listing (c : Client) (r : Request) (field : String)
    (row : Value → Except ShapeFault α) :
    Lists c r field (RowEach row) (c.listing r field row) :=
  lists_of_items c r field fun _ _ => mapM_eq_ok_iff

/-- Whatever pages come before its attempts fail, a request that comes in pages comes to the items of
the one attempt that runs to the end, in order and with nothing of those before it, and a listing has
one row for each of them, that of instances one for each instance of each reservation. If waits are
integers, the items that an attempt delivers are what the request comes to. -/
theorem listings_whole (c : Client) :
    (∀ r field s, (c.items r field).Meets s
      (fun items s' => ∃ n, Delivered r field s.provider n items ∧
        s'.made = List.replicate n (.request r) ++ s.made)
      fun _ _ => True) ∧
    Lists c .networks "Vpcs" (RowEach Client.networkRow) c.listNetworks ∧
    (∀ network, Lists c (.subnets network) "Subnets" (RowEach Client.subnetRow)
      (c.listSubnets network)) ∧
    (∀ network, Lists c (.securityGroups network) "SecurityGroups" (RowEach Client.securityGroupRow)
      (c.listSecurityGroups network)) ∧
    Lists c .instanceProfiles "InstanceProfiles" (RowEach fun d => d.field "InstanceProfileName")
      c.listInstanceProfiles ∧
    Lists c .instances "Reservations" InstanceRows c.listInstances ∧
    ∀ base : Int, c.policy.baseDelay = .int base → 0 ≤ base → ∀ r field s n items,
      Delivered r field s.provider n items → (n = 1 ∨ n ≤ c.policy.attempts) →
        (∀ k, k + 1 < n → base * 2 ^ k < 2 ^ 1023) →
          ((c.items r field).outcome s).1 = .ok items :=
  ⟨c.meets_items, lists_listing c _ _ _, fun _ => lists_listing c _ _ _,
    fun _ => lists_listing c _ _ _, lists_listing c _ _ _,
    lists_of_items c _ _ fun _ _ => Client.instanceRows_eq_ok_iff,
    fun _ hpolicy hbase _ _ _ _ _ h hattempts hwaits =>
      Client.outcome_items hpolicy hbase h hattempts hwaits⟩

def network (id : String) : Value :=
  .object [("VpcId", .text id)]

def networksPage (ids : List String) : Value :=
  .object [("Vpcs", .list (ids.map network))]

def throttled : Failure :=
  .refused "DescribeVpcs" (some (.text "Throttling")) none

/-- The provider asks to try again after one page, and then delivers two. -/
def throttledSession : Session where
  files := .empty
  directory := ⟨1, ["srv"]⟩
  home := ⟨1, ["root"]⟩
  moment := ⟨2024, 1, 1, 12, 0, 0⟩
  processId := "1"
  provider := ⟨[(("DescribeVpcs", true),
    [⟨[networksPage ["vpc-1"]], some throttled⟩,
      ⟨[networksPage ["vpc-1", "vpc-2"], networksPage ["vpc-3"]], none⟩])]⟩

/-- The network of the first attempt is listed once. -/
theorem listings_whole_throttled :
    Delivered .networks "Vpcs" throttledSession.provider 2 (["vpc-1", "vpc-2", "vpc-3"].map network) ∧
      ((Client.items ⟨"eu-west-1", none, ⟨3, .int 2⟩⟩ .networks "Vpcs").outcome throttledSession).1 =
        .ok (["vpc-1", "vpc-2", "vpc-3"].map network) := by
  have h : Delivered .networks "Vpcs" throttledSession.provider 2
      (["vpc-1", "vpc-2", "vpc-3"].map network) := by
    refine ⟨by decide, fun k hk hlt => ?_, rfl, Client.pageItems_eq_ok_iff.1 rfl⟩
    obtain rfl : k = 1 := by omega
    exact ⟨throttled, ["vpc-1"].map network, rfl, rfl, Client.pageItems_eq_ok_iff.1 rfl⟩
  refine ⟨h, (listings_whole ⟨"eu-west-1", none, ⟨3, .int 2⟩⟩).2.2.2.2.2.2 2 rfl (by decide) _ _ _ _ _ h
    (.inr (by decide)) fun k hk => ?_⟩
  obtain rfl : k = 0 := by omega
  rw [pow_zero, mul_one]
  exact lt_self_pow₀ (by decide) (by decide)

end Cloud
end InstanceInventory
