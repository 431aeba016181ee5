import InstanceInventory.Proofs.Action.Returns
import InstanceInventory.Proofs.Record.Described
import InstanceInventory.Proofs.Record.Schema

/-! # Images of the provider

* `Cloud.Script.Offers`: the attempts that a script still has; drawing one adds none.
* `Cloud.Script.NamesImages`: every image that the provider lists has an id that is not blank.
* `Cloud.Client.returns_call`: a request comes to what is collected of an attempt that was offered.
* `Cloud.Client.returns_findLatestImage`: the newest image has an id that is not blank.
-/

namespace InstanceInventory
set_option autoImplicit false
open InstanceInventory.Action (Frame Keeps Returns returns_pure returns_throw)
open Session (Kept)
variable {α ε : Type} {known : Session → Prop} {P : α → Prop}

/-! ## Scripts -/

/-- The answers to a kind of question that a script still has. -/
def Script.Offers {κ : Type} (p : Script κ α) (kind : κ) (a : α) : Prop :=
  ∃ as, (kind, as) ∈ p.answers ∧ a ∈ as

theorem Script.afterFirst_subset (as : List α) : afterFirst as ⊆ as := by
  unfold afterFirst
  split
  · exact List.subset_cons_self _ _
  · exact List.Subset.refl _

/-- The next answer was offered, and no other is offered after it than before. -/
theorem Script.offers_of_next? {κ : Type} [BEq κ] [LawfulBEq κ] {p p' : Script κ α} {kind : κ} {a : α}
    (h : p.next? kind = some (a, p')) :
    p.Offers kind a ∧ ∀ k b, p'.Offers k b → p.Offers k b := by
  unfold next? at h
  split at h
  · next found first rest hfind =>
    cases h
    have hkind : found = kind := by simpa using List.find?_some hfind
    refine ⟨⟨_, hkind ▸ List.mem_of_find?_eq_some hfind, List.mem_cons_self ..⟩, ?_⟩
    rintro k b ⟨bs, hbs, hb⟩
    obtain ⟨e, he, heq⟩ := List.mem_map.1 hbs
    split at heq
    · cases heq
      exact ⟨e.2, he, afterFirst_subset _ hb⟩
    · cases heq
      exact ⟨bs, he, hb⟩
  · cases h

namespace Cloud

/-- Every image on a page has an id that is not blank, if it has one. -/
def NamesImages (page : Value) : Prop :=
  ∀ image ∈ page.itemsAt "Images", ∀ id, image.at? "ImageId" = some id →
    ∃ s, id = .text s ∧ Record.Given s

/-- Every image that a provider lists has an id that is not blank. -/
def Script.NamesImages (p : Script) : Prop :=
  ∀ a, p.Offers ("DescribeImages", false) a → ∀ page ∈ a.pages, Cloud.NamesImages page

/-- What is known of the provider in a session. -/
def Images (s : Session) : Prop :=
  Script.NamesImages s.provider

instance : Frame.Draws (Kept Images) where
  refl _ := id
  trans h h' hs := h' (h hs)
  shown _ _ := id
  steps _ _ := id
  draw s r hs := by
    cases hnext : s.provider.next? (r.operation, r.isPaged) with
    | none => exact hs
    | some e => exact fun a ha => hs a ((Script.offers_of_next? hnext).2 _ _ ha)
  waited _ _ := id

instance : Frame.Answers (Kept Images) where
  answer _ _ _ _ := id

end Cloud

/-! ## Requests -/

theorem Retry.returns_run {p : Policy} {judge : Judge ε} {description : String}
    {act : Action (Except ε α)} {P : Except ε α → Prop} [Frame.Draws (Kept known)]
    (hact : act.Returns known P) : (run p judge description act).Returns known P := by
  unfold run
  generalize p.retries = retries
  -- The number of the attempt only sets the wait before the next one.
  generalize 0 = attempt
  induction retries generalizing attempt with
  | zero => exact hact
  | succ retries ih =>
    rw [runFrom]
    refine hact.bind fun result hresult => ?_
    cases result with
    | ok a => exact returns_pure hresult
    | error e =>
      refine (Action.keeps_ofShape _).bind_returns fun transient => ?_
      split
      · exact (keeps_pause _ _ _ _).bind_returns fun _ => ih _
      · exact returns_pure hresult

/-- What is drawn for a request was offered, or is the bare attempt. -/
theorem Cloud.offers_drawn (r : Cloud.Request) (provider : Cloud.Script) :
    provider.Offers (r.operation, r.isPaged) (drawn r provider).1 ∨ (drawn r provider).1 = .bare r := by
  unfold drawn
  cases hnext : provider.next? (r.operation, r.isPaged) with
  | none => exact .inr rfl
  | some e => exact .inl (Script.offers_of_next? hnext).1

namespace Cloud.Client
variable {r : Request} {collect : List Value → Except ShapeFault α}

theorem returns_attempt [Frame.Draws (Kept known)]
    (h : ∀ s, known s → ∀ a, s.provider.Offers (r.operation, r.isPaged) a ∨ a = .bare r →
      ∀ v, collect a.pages = .ok v → P v) :
    (attempt r collect).Returns known fun result => ∀ v, result = .ok v → P v := by
  intro s hs
  have hframe : Kept known s (requested r s) := Frame.Draws.draw s r
  refine (meets_attempt r collect s).imp ?_ fun _ _ _ => trivial
  rintro result _ ⟨hresult, rfl⟩
  refine ⟨fun v hv => ?_, hframe hs⟩
  subst hv
  exact h s hs _ (offers_drawn r s.provider) v (attempted_eq_ok_iff.1 hresult).2

/-- A request comes to what is collected of an attempt that was offered, or of the bare one. -/
theorem returns_call {c : Client} [Frame.Draws (Kept known)]
    (h : ∀ s, known s → ∀ a, s.provider.Offers (r.operation, r.isPaged) a ∨ a = .bare r →
      ∀ v, collect a.pages = .ok v → P v) : (c.call r collect).Returns known P := by
  unfold call
  refine (Action.keeps_note _).then_returns fun _ => ?_
  refine (Retry.returns_run (returns_attempt h)).bind fun result hresult => ?_
  cases result with
  | ok v => exact returns_pure (hresult v rfl)
  | error f => exact returns_throw _

theorem namesImages_emptyObject : NamesImages .emptyObject :=
  nofun

theorem returns_images {c : Client} {pattern owner : String} :
    (c.answer (.images pattern owner)).Returns Images NamesImages := by
  refine returns_call fun s hs a ha v hv => ?_
  obtain rfl := Except.ok.inj hv
  rcases ha with hoffered | rfl
  · cases hpages : a.pages with
    | nil => exact namesImages_emptyObject
    | cons page pages => exact hs a hoffered page (hpages ▸ List.mem_cons_self ..)
  · exact namesImages_emptyObject

theorem mem_of_latest {image time newest : Value} {others : List Value}
    (h : latest image time others = .ok newest) : newest ∈ image :: others := by
  induction others generalizing image time with
  | nil => exact Except.ok.inj h ▸ List.mem_cons_self ..
  | cons other others ih =>
    obtain ⟨otherTime, -, h⟩ := exists_of_bind h
    obtain ⟨isLater, -, h⟩ := exists_of_bind h
    cases isLater with
    | true => exact List.mem_cons_of_mem _ (ih h)
    | false =>
      rcases List.mem_cons.1 (ih h) with rfl | hmem
      · exact List.mem_cons_self ..
      · exact List.mem_cons_of_mem _ (List.mem_cons_of_mem _ hmem)

theorem at?_of_field {v w : Value} {name : String} (h : v.field name = .ok w) :
    v.at? name = some w := by
  unfold Value.field at h
  split at h
  · split at h
    · next hfound =>
      cases h
      exact hfound
    · cases h
  · cases h

/-- What has a field among the items of a page is listed there. -/
theorem mem_itemsAt {page found image id : Value} {items : List Value} {field name : String}
    (hfound : page.fieldOr field (.list []) = .ok found) (hitems : found.items = .ok items)
    (himage : image ∈ items) (hid : image.at? name = some id) : image ∈ page.itemsAt field := by
  have hobject : ∀ s, image ≠ .text s := by
    rintro s rfl
    cases hid
  have hlist : found = .list items := by
    cases found with
    | list vs => rw [Except.ok.inj hitems]
    | text s =>
      rw [← Except.ok.inj hitems] at himage
      obtain ⟨c, -, rfl⟩ := List.mem_map.1 himage
      exact absurd rfl (hobject _)
    | object fields =>
      rw [← Except.ok.inj hitems] at himage
      obtain ⟨f, -, rfl⟩ := List.mem_map.1 himage
      exact absurd rfl (hobject _)
    | _ => cases hitems
  cases page with
  | object fields =>
    have hget : (Pairs.get? fields field).getD (.list []) = .list items :=
      (Except.ok.inj hfound).trans hlist
    rw [Value.itemsAt, Value.at?]
    cases hfield : Pairs.get? fields field with
    | none =>
      rw [hfield] at hget
      cases hget
      cases himage
    | some v =>
      rw [hfield] at hget
      cases hget
      exact himage
  | _ => cases hfound

/-- The newest image has an id that is not blank. -/
theorem returns_findLatestImage (c : Client) (pattern owner : String) :
    (c.findLatestImage pattern owner).Returns Images
      fun found => ∀ id, found = some id → ∃ s, id = .text s ∧ Record.Given s := by
  unfold findLatestImage
  refine returns_images.bind fun page hpage => ?_
  refine (Action.returns_ofShape fun _ => id).bind fun found hfound => ?_
  split
  · exact returns_pure nofun
  · refine (Action.returns_ofShape fun _ => id).bind fun items hitems => ?_
    cases items with
    | nil => exact returns_pure nofun
    | cons image others =>
      refine Action.returns_ofShape fun a ha id hid => ?_
      subst hid
      obtain ⟨time, -, ha⟩ := exists_of_bind ha
      obtain ⟨newest, hnewest, ha⟩ := exists_of_bind ha
      obtain ⟨id', hid, ha⟩ := exists_of_bind ha
      obtain rfl : id' = id := Option.some.inj (Except.ok.inj ha)
      have hnamed := at?_of_field hid
      exact hpage newest (mem_itemsAt hfound hitems (mem_of_latest hnewest) hnamed) id' hnamed

end Cloud.Client
end InstanceInventory
