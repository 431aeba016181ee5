import InstanceInventory.Proofs.Document.Looking
import InstanceInventory.Proofs.Keeper.Parts
import InstanceInventory.Proofs.Record.Validated

/-! # The ledger of the inventory

* `Ledger`: the records that the inventory holds, in order, and what the document says besides them.
* `Ledger.Sound`: a ledger whose records have distinct keys and can be read back.
* `Keeper.Sees`: the document of a keeper is that of a ledger.
* `Keeper.Faces`: the same, in an operation that is not cancelled.
* `Keeper.Tested`: the document of a ledger was written and passed a validation after that.
* `Faces.writePut_meets`, `Faces.writeDrop_meets`: the document of the next ledger is written.
-/

namespace InstanceInventory
set_option autoImplicit false
open InstanceInventory.Action (Frame Keeps Meets meets_bind meets_pure still_then)
open Session (Did Still Calm)

/-! ## Ledgers -/

/-- The records that the inventory holds, in order, and what the document says besides them since it
was last written; nothing before it is written first. -/
structure Ledger where
  records : List InstanceRecord := []
  written : Option Document.Options := none

namespace Ledger

/-- The keys of the records, in order. -/
def keys (l : Ledger) : List String :=
  l.records.map InstanceRecord.key

/-- The text of the document, once it is written. -/
def text? (l : Ledger) : Option String :=
  l.written.map fun o => Document.render o (l.records.map InstanceRecord.blockText)

/-- The text of the document, empty before it is written first. -/
def text (l : Ledger) : String :=
  l.text?.getD ""

/-- The records with another key. -/
def others (l : Ledger) (key : String) : List InstanceRecord :=
  l.records.filter fun r => r.key != key

/-- A ledger without the record of a key, written with certain options. -/
def drop (l : Ledger) (o : Document.Options) (key : String) : Ledger :=
  ⟨l.others key, some o⟩

/-- A ledger with a record at the end, in place of the one with its key, written with certain
options. -/
def put (l : Ledger) (o : Document.Options) (r : InstanceRecord) : Ledger :=
  ⟨l.others r.key ++ [r], some o⟩

/-- The keys are distinct, the records can be read back, and there are none before the document is
written first. -/
structure Sound (l : Ledger) : Prop where
  nodup : l.keys.Nodup
  clear : ∀ r ∈ l.records, r.TagsClear
  unwritten : l.written = none → l.records = []

/-- The report that a key is taken by a record. -/
def Refuses (l : Ledger) (key : String) (f : Fault) : Prop :=
  ∃ r ∈ l.records, r.key = key ∧ f = .report (.duplicateRecord key (some r.name))

variable {l : Ledger} {o : Document.Options} {key : String} {r : InstanceRecord}

theorem map_key_others (l : Ledger) (key : String) :
    (l.others key).map InstanceRecord.key = l.keys.filter (· != key) := by
  rw [keys, others, List.filter_map, Function.comp_def]

theorem filter_records (l : Ledger) (key : String) :
    (l.records.filter fun r => some key != some r.key) = l.others key := by
  refine List.filter_congr fun r _ => ?_
  rw [Bool.eq_iff_iff, bne_iff_ne, bne_iff_ne, ne_comm, ne_eq, ne_eq, Option.some_inj]

theorem mem_keys : key ∈ l.keys ↔ ∃ r ∈ l.records, r.key = key := List.mem_map

theorem others_eq_self (h : key ∉ l.keys) : l.others key = l.records := by
  refine List.filter_eq_self.2 fun r hr => ?_
  rw [bne_iff_ne]
  rintro rfl
  exact h (List.mem_map_of_mem hr)

theorem Sound.nodup_others (h : l.Sound) (key : String) :
    ((l.others key).map InstanceRecord.key).Nodup := by
  rw [map_key_others]
  exact h.nodup.filter _

theorem Sound.drop (h : l.Sound) (o : Document.Options) (key : String) : (l.drop o key).Sound where
  nodup := h.nodup_others key
  clear r hr := h.clear r (List.mem_filter.1 hr).1
  unwritten hnone := nomatch hnone

theorem keys_put (l : Ledger) (o : Document.Options) (r : InstanceRecord) :
    (l.put o r).keys = l.keys.filter (· != r.key) ++ [r.key] := by
  rw [keys, put, List.map_append, map_key_others]
  rfl

theorem Sound.put (h : l.Sound) (o : Document.Options) (hr : r.TagsClear) : (l.put o r).Sound where
  nodup := by
    rw [keys_put, List.nodup_append]
    refine ⟨h.nodup.filter _, by simp, ?_⟩
    rintro a ha b hb rfl
    obtain rfl := List.mem_singleton.1 hb
    have hne := (List.mem_filter.1 ha).2
    simp at hne
  clear s hs := by
    rcases List.mem_append.1 hs with hs | hs
    · exact h.clear s (List.mem_filter.1 hs).1
    · rw [List.mem_singleton.1 hs]
      exact hr
  unwritten hnone := nomatch hnone

theorem Sound.holds (h : l.Sound) : Document.Holds l.text l.records := by
  obtain ⟨records, written⟩ := l
  cases written with
  | none =>
    obtain rfl : records = [] := h.unwritten rfl
    exact Document.holds_empty
  | some o => exact Document.holds_render o h.nodup

theorem Sound.unifyNewlines_text (h : l.Sound) : Text.unifyNewlines l.text = l.text :=
  (Text.unifyNewlines_eq_self_iff _).2 h.holds.printed.return_not_mem

end Ledger

/-! ## The document of a keeper -/

namespace Keeper
variable {k : Keeper} {l l' : Ledger} {s s' : Session} {text : String}

/-- The document of a keeper is that of a ledger, and others leave it alone. -/
structure Sees (k : Keeper) (l : Ledger) (s : Session) : Prop where
  document : (k.store.held? s).map Prod.fst = l.text?.map String.toUTF8
  undisturbed : s.Undisturbed (s.site k.store.path)

/-- A keeper sees the document of a ledger in an operation that is not cancelled. -/
structure Faces (k : Keeper) (l : Ledger) (s : Session) : Prop extends Sees k l s where
  going : s.progress.cancelled = false

theorem Sees.of_did {changed : Set Files.Place} {ds : List Deed} (h : k.Sees l s)
    (hs : Did changed ds s s') (hp : s.site k.store.path ∉ changed) : k.Sees l s' where
  document := (Store.held?_of_did hs hp).symm ▸ h.document
  undisturbed := by
    rw [hs.site]
    exact hs.undisturbed h.undisturbed

theorem Faces.of_did {changed : Set Files.Place} {ds : List Deed} (h : k.Faces l s)
    (hs : Did changed ds s s') (hp : s.site k.store.path ∉ changed) : k.Faces l s' :=
  ⟨h.toSees.of_did hs hp, hs.cancelled.trans h.going⟩

theorem Sees.of_still {ds : List Deed} (h : k.Sees l s) (hs : Did ∅ ds s s') : k.Sees l s' :=
  h.of_did hs (Set.notMem_empty _)

theorem Faces.of_still {ds : List Deed} (h : k.Faces l s) (hs : Did ∅ ds s s') : k.Faces l s' :=
  h.of_did hs (Set.notMem_empty _)

theorem Faces.of_calm (h : k.Faces l s) (hs : Calm s s') : k.Faces l s' :=
  h.of_did hs (Session.notMem_disturbed.2 h.undisturbed)

theorem Faces.of_backs {copy : Option Files.Path} (h : k.Faces l s)
    (hs : k.store.Backs copy s s') : k.Faces l s' := by
  cases copy with
  | none => exact h.of_still hs.1
  | some copy =>
    have hkept : k.store.Kept copy s s' := hs
    exact h.of_did hkept.did fun hmem => hkept.site_ne (Set.mem_singleton_iff.1 hmem).symm

theorem Faces.of_writes (h : k.Faces l s) (hs : k.store.Writes text s s')
    (ht : l'.text? = some text) : k.Faces l' s' where
  document := by
    rw [hs.document, ht]
    rfl
  undisturbed := by
    rw [hs.did.site]
    exact hs.did.undisturbed h.undisturbed
  going := hs.did.cancelled.trans h.going

/-- Since the document of a ledger was written nothing was done but to run Terraform, which has
validated it. -/
def Tested (l : Ledger) (s : Session) : Prop :=
  ∃ rs older, s.deeds = rs ++ .wrote l.text :: older ∧ Validated rs ∧ ∀ d ∈ rs, d.IsRun

theorem Sees.text?_eq (h : k.Sees l s) (hl : l.Sound) : k.store.text? s = some l.text := by
  have hdocument := h.document
  have hunify := hl.unifyNewlines_text
  rw [Store.text?]
  rw [Ledger.text] at hunify ⊢
  cases hheld : k.store.held? s with
  | none =>
    rw [hheld] at hdocument
    cases htext : l.text? with
    | none => rfl
    | some text =>
      rw [htext] at hdocument
      cases hdocument
  | some content =>
    rw [hheld] at hdocument
    cases htext : l.text? with
    | none =>
      rw [htext] at hdocument
      cases hdocument
    | some text =>
      rw [htext] at hdocument hunify
      have hbytes : content.1 = text.toUTF8 := Option.some.inj hdocument
      have hraw : String.fromUTF8? content.1 = some text :=
        (Text.fromUTF8?_eq_some_iff _ _).2 hbytes.symm
      simp only [hraw, Option.map_some, Option.getD_some] at hunify ⊢
      exact congrArg some hunify

/-- The text that is read under the lock is that of the ledger. -/
theorem Faces.readText_meets (h : k.Faces l s) (hl : l.Sound) (hreaches : k.store.Reaches s) :
    k.store.readText.Meets s
      (fun text s' => text = l.text ∧ k.Faces l s' ∧ Did ∅ [.read text] s s')
      fun f s' => k.Faces l s' ∧ k.store.Denies s' f := by
  refine (k.store.readText_meets s).imp (fun text s' ⟨hdid, _, hshows⟩ => ⟨?_, h.of_still hdid, hdid⟩)
    fun f s' ⟨hs, hf⟩ => ⟨hs ▸ h, hs ▸ hf⟩
  exact Option.some.inj ((hreaches.text?_of_shows hshows).symm.trans (h.text?_eq hl))

/-- A text that is read, whether or not the document can be reached, holds no other records than the
ledger. -/
theorem Faces.readText_holds (h : k.Faces l s) (hl : l.Sound) :
    k.store.readText.Meets s
      (fun text s' => k.Faces l s' ∧ ∃ rs, Document.Holds text rs ∧ ∀ r ∈ rs, r ∈ l.records)
      fun f s' => k.Faces l s' ∧ k.store.Denies s' f := by
  refine (k.store.readText_meets s).imp (fun text s' ⟨hdid, _, hshows⟩ => ⟨h.of_still hdid, ?_⟩)
    fun f s' ⟨hs, hf⟩ => ⟨hs ▸ h, hs ▸ hf⟩
  obtain rfl | htext := (Store.Looked.mk hdid ⟨s, .refl ∅ s, hshows⟩ :
    k.store.Looked ∅ text s s').text_eq
  · exact ⟨[], Document.holds_empty, fun _ hr => absurd hr List.not_mem_nil⟩
  · obtain rfl : text = l.text := Option.some.inj (htext.symm.trans (h.text?_eq hl))
    exact ⟨l.records, hl.holds, fun _ => id⟩

/-- Giving up leaves the document. -/
theorem Faces.cancel_meets (h : k.Faces l s) (message : String) {bad : Fault → Session → Prop} :
    (Action.cancel message).Meets s
      (fun _ s' => k.Sees l s' ∧ s'.progress.cancelled = true) bad := by
  refine still_then (Action.keeps_status _) fun _ s₁ h₁ => (Action.meets_modify _).2 ⟨?_, rfl⟩
  have hsees := h.toSees.of_still h₁
  exact ⟨hsees.document, hsees.undisturbed⟩

/-! ## Edits of the document -/

theorem Faces.backup_meets (h : k.Faces l s) :
    k.backup.Meets s (fun copy s' => k.Faces l s' ∧ k.store.Backs copy s s')
      fun f s' => k.Faces l s' ∧ k.store.Denies s' f :=
  (k.backup_meets s).imp (fun _ _ hb => ⟨h.of_backs hb, hb⟩) fun _ _ hb => ⟨h.of_still hb.1, hb.2⟩

/-- A document of records with distinct keys is written. -/
theorem Faces.writeRecords_meets (h : k.Faces l s) {rs : List InstanceRecord}
    (hrs : (rs.map InstanceRecord.key).Nodup) :
    (k.writeDocument (rs.map InstanceRecord.blockText) (rs.map InstanceRecord.key)).Meets s
      (fun _ s' => k.Faces ⟨rs, some (documentOptions k.settings)⟩ s' ∧
        k.store.Writes (Ledger.text ⟨rs, some (documentOptions k.settings)⟩) s s')
      fun f s' => k.Faces l s' ∧ k.store.Denies s' f := by
  have hkeys := Document.demandKeys_gives (documentOptions k.settings) hrs
  unfold writeDocument
  dsimp only
  refine hkeys.bind_meets fun _ t ht _ => ?_
  exact (k.store.write_meets _ t).imp (fun _ u hu =>
      ⟨(h.of_still ht).of_writes hu rfl, hu.after_still ht⟩)
    fun f u hu => ⟨(h.of_still ht).of_still hu.1, hu.2⟩

/-- The other records and a record after them are written. -/
theorem Faces.writePut_meets {r : InstanceRecord} (h : k.Faces l s) (hl : l.Sound)
    (hr : r.TagsClear) :
    (k.writeDocument ((l.others r.key).map InstanceRecord.blockText ++ [r.blockText])
      (l.keys.filter (· != r.key) ++ [r.key])).Meets s
      (fun _ => k.Faces (l.put (documentOptions k.settings) r))
      fun f s' => k.Faces l s' ∧ k.store.Denies s' f := by
  have hwrite := h.writeRecords_meets (hl.put (documentOptions k.settings) hr).nodup
  have hkeys : (l.others r.key ++ [r]).map InstanceRecord.key =
      l.keys.filter (· != r.key) ++ [r.key] :=
    l.keys_put (documentOptions k.settings) r
  rw [Ledger.put, hkeys, List.map_append] at hwrite
  exact hwrite.imp (fun _ _ hwritten => hwritten.1) fun _ _ => id

theorem Faces.writeDrop_meets {key : String} (h : k.Faces l s) (hl : l.Sound) :
    (k.writeDocument ((l.others key).map InstanceRecord.blockText) (l.keys.filter (· != key))).Meets s
      (fun _ s' => k.Faces (l.drop (documentOptions k.settings) key) s' ∧
        k.store.Writes (l.drop (documentOptions k.settings) key).text s s')
      fun f s' => k.Faces l s' ∧ k.store.Denies s' f := by
  have hwrite := h.writeRecords_meets (hl.drop (documentOptions k.settings) key).nodup
  rw [Ledger.drop, Ledger.map_key_others] at hwrite
  exact hwrite

end Keeper
end InstanceInventory
