import InstanceInventory.Proofs.Keeper.History
import InstanceInventory.Proofs.Keeper.Outcomes

/-! # Removing an instance from a ledger

* `Keeper.Faces.takeOut_meets`: the record of a key is taken out of the ledger, unless Terraform does
  not agree to the rest.
* `Keeper.Sees.remove_turns`: what removing an instance makes of the ledger.
-/

namespace InstanceInventory
set_option autoImplicit false
open InstanceInventory.Action (Frame Keeps Meets keeps_bind keeps_pure meets_bind meets_pure
  still_then still_last)
open Session (Did Still Ran Follows)

/-- A fault with which the record of a key is not taken out of a ledger: the files refuse a step, there
is no such record, or Terraform does not agree to the rest. -/
def Ledger.Retains (k : Keeper) (l : Ledger) (key : String) (s : Session) (f : Fault) : Prop :=
  k.store.Denies s f ∨ key ∉ l.keys ∧ f = .report (.recordNotFound key l.keys) ∨
    key ∈ l.keys ∧ ∃ wording copy,
      f = .report (.postWrite wording (some (Files.Path.text copy)) true)

namespace Keeper
variable {k : Keeper} {l : Ledger} {s s' : Session} {key : String} {copy : Files.Path}

/-- A copy of the document of a ledger, which is written. -/
structure Copied (l : Ledger) (copy : Files.Path) (s : Session) : Prop where
  text?_eq : l.text? = some l.text
  file : ∃ mode, s.files.fileAt? (s.site copy) = some (l.text.toUTF8, mode)
  reached : s.files.place (s.locate copy) = .ok (s.site copy)

/-- A copy stays while no directory is lost and nothing is done at its place. -/
theorem Copied.of_did {changed : Set Files.Place} {ds : List Deed} (h : Copied l copy s)
    (hs : Did changed ds s s')
    (hdirectories : ∀ q, s.files.hasDirectory q = true → s'.files.hasDirectory q = true)
    (hcopy : s.site copy ∉ changed) : Copied l copy s' := by
  obtain ⟨mode, hfile⟩ := h.file
  refine ⟨h.text?_eq, ⟨mode, by rw [hs.site, hs.files _ hcopy, hfile]⟩, ?_⟩
  rw [hs.locate, hs.site]
  exact Files.Tree.place_mono hdirectories h.reached

theorem Copied.of_still {ds : List Deed} (h : Copied l copy s) (hs : Did ∅ ds s s') :
    Copied l copy s' :=
  h.of_did hs (fun q => hs.directories q (Set.notMem_empty q)) (Set.notMem_empty _)

theorem Faces.copied (h : k.Faces l s) (hs : k.store.Kept copy s s') : Copied l copy s' := by
  obtain ⟨⟨bytes, mode⟩, hheld, hcopied⟩ := hs.content
  have hdocument := h.document
  rw [hheld, Option.map_some] at hdocument
  cases htext : l.text? with
  | none =>
    rw [htext] at hdocument
    cases hdocument
  | some text =>
    have hl : l.text = text := by rw [Ledger.text, htext, Option.getD_some]
    rw [htext, Option.map_some] at hdocument
    obtain rfl := Option.some.inj hdocument
    exact ⟨by rw [htext, hl], ⟨mode, by rw [hs.did.site, hcopied, hl]⟩, hs.reached⟩

/-- A copy can be read, and what is read from it is the text of the document. -/
theorem Copied.readText_eq (h : Copied l copy s) (hl : l.Sound) :
    s.files.readText (s.locate copy) = .ok l.text := by
  obtain ⟨mode, hstands⟩ := h.file
  exact Files.Tree.readText_eq_ok.2 ⟨_, Files.Tree.file_eq_ok.2 ⟨h.reached, hstands⟩, l.text,
    (Text.fromUTF8?_eq_some_iff _ _).2 rfl, hl.unifyNewlines_text.symm⟩

/-- The rest is checked. If Terraform does not agree to it the document of the ledger is put back. -/
theorem Faces.checkRemoval_meets (h : k.Faces (l.drop (documentOptions k.settings) key) s)
    (hl : l.Sound) (hcopy : Copied l copy s) (forget : Bool) :
    (k.checkRemoval key (some copy)).Meets s
      (fun _ s' => k.Faces (l.drop (documentOptions k.settings) key) s' ∧
        ∃ rs, Session.Underway (removeRule (Record.addressOf key) forget) rs s s' ∧ Validated rs)
      fun f s' => k.Faces (l.drop (documentOptions k.settings) key) s' ∧ k.Denies s' f ∨
        k.Faces l s' ∧ ∃ wording, f = .report (.postWrite wording (some copy.text) true) := by
  refine (Keeper.checkRemoval_meets k key forget copy s).imp
    (fun _ t ⟨rs, ht, hvalidated⟩ => ⟨h.of_still ht.did, rs, ht, hvalidated⟩) ?_
  rintro f t (⟨hf, rs, ht, -⟩ | ⟨u, text, wording, ⟨rs, hu, -⟩, hread, hback, rfl⟩)
  · obtain hf | ⟨e, he, -⟩ := hf
    · exact .inl ⟨h.of_still ht, hf⟩
    · exact absurd (((hcopy.of_still ht).readText_eq hl).symm.trans he) nofun
  · obtain rfl : l.text = text :=
      Except.ok.inj (((hcopy.of_still hu).readText_eq hl).symm.trans hread)
    exact .inr ⟨(h.of_still hu).of_writes hback hcopy.text?_eq, wording, rfl⟩

/-- A document that was written stays tested while Terraform is run in the order of a removal. -/
theorem tested_of_follows {st : Store} {u t : Session} {rs es : List Deed} {forget : Bool}
    (h : st.Writes l.text s s')
    (hunder : Session.Underway (removeRule (Record.addressOf key) forget) rs s' u)
    (hvalidated : Validated rs) (hdid : Did ∅ es u t)
    (hfollows : Follows (removeRule (Record.addressOf key) forget) s' t) : Tested l t := by
  obtain ⟨runs, hall, hordered⟩ := hfollows
  -- The order is known of all runs since the write, the validation of the first of them.
  have hdeeds : runs = es ++ rs := by
    refine List.append_cancel_right (hall.deeds.symm.trans (hdid.deeds.trans ?_))
    rw [hunder.did.deeds, List.append_assoc]
  obtain ⟨out, err, hmem⟩ := hvalidated
  refine ⟨runs, _, hall.deeds.trans (congrArg _ h.did.deeds),
    ⟨out, err, hdeeds ▸ List.mem_append_right es hmem⟩, ?_⟩
  exact Edit.isRun_of_ordered (e := .remove key forget) (c := { target := some key }) hordered

/-- The record of a key is taken out of the document that holds it. -/
theorem Faces.cutOut_meets (h : k.Faces l s) (hl : l.Sound) (hpresent : k.store.isPresent s = .ok true)
    (forget : Bool) :
    (k.cutOut l.text key (l.keys.filter (· != key)) forget).alone.Meets s
      (fun _ s' => k.Faces (l.drop (documentOptions k.settings) key) s' ∧
        Tested (l.drop (documentOptions k.settings) key) s')
      fun f s' => k.Faces l s' ∧ (k.store.Denies s' f ∨ ∃ wording copy,
          f = .report (.postWrite wording (some (Files.Path.text copy)) true)) ∨
        k.Faces (l.drop (documentOptions k.settings) key) s' ∧ (k.Denies s' f ∨ f.IsTerraform ∧
          forget = true ∧ Tested (l.drop (documentOptions k.settings) key) s') := by
  unfold cutOut
  simp only [Process.alone_bind, Process.alone_lift, Process.alone_ite, Process.alone_pure]
  refine (h.backup_meets.imp_bad fun _ _ hf => .inl ⟨hf.1, .inl hf.2⟩).bind fun copy s₁ ⟨h₁, hbacks⟩ => ?_
  cases copy with
  | none => exact absurd (hpresent.symm.trans hbacks.2) (by simp)
  | some copy =>
    have hkept : k.store.Kept copy s s₁ := hbacks
    refine still_then (Action.keeps_status _) fun _ s₂ h₂ => ?_
    refine (Document.blocksWithout_gives hl.holds (some key)).bind_meets fun blocks s₃ h₃ hblocks => ?_
    rw [Ledger.filter_records] at hblocks
    subst hblocks
    have hs₃ := Frame.trans h₂ h₃
    refine ((h₁.of_still hs₃).writeDrop_meets hl).imp_bad (fun _ _ hf => .inl ⟨hf.1, .inl hf.2⟩)
      |>.bind fun _ s₄ ⟨h₄, hwrites⟩ => ?_
    refine still_then (Action.keeps_success _) fun _ s₅ h₅ =>
      still_then (Action.keeps_step _ _ _) fun _ s₆ h₆ =>
        still_then (Action.keeps_status _) fun _ s₇ h₇ => ?_
    have hwrites := ((hwrites.then_still h₅).then_still h₆).then_still h₇
    have hcopied : Copied l copy s₇ := by
      refine ((h.copied hkept).of_still hs₃).of_did hwrites.did hwrites.directories ?_
      rw [hs₃.site, hs₃.site, hkept.did.site, hkept.did.site]
      exact hkept.site_ne
    have h₇ := ((h₄.of_still h₅).of_still h₆).of_still h₇
    refine ((h₇.checkRemoval_meets hl hcopied forget).imp_bad ?_).bind
      fun _ s₈ ⟨h₈, rs, hunder, hvalidated⟩ => ?_
    · rintro f t (⟨ht, hf⟩ | ⟨ht, wording, hf⟩)
      · exact .inr ⟨ht, .inl hf⟩
      · exact .inl ⟨ht, .inr ⟨wording, copy, hf⟩⟩
    cases forget with
    | false =>
      exact (meets_pure _).2
        ⟨h₈, tested_of_follows hwrites hunder hvalidated (.refl ∅ s₈) hunder.follows⟩
    | true =>
      have hran : (k.forgetState key).Keeps Ran Fault.IsTerraform := k.keeps_forgetState key
      refine ((k.forgetState_meets key hunder hvalidated).and (hran s₈)).imp ?_ ?_
      · rintro _ t ⟨hfollows, es, ht⟩
        exact ⟨h₈.of_still ht, tested_of_follows hwrites hunder hvalidated ht hfollows⟩
      · rintro f t ⟨⟨hf, hfollows⟩, ⟨es, ht⟩, -⟩
        have htested := tested_of_follows hwrites hunder hvalidated ht hfollows
        exact .inr ⟨h₈.of_still ht, .inr ⟨hf, rfl, htested⟩⟩

/-- A ledger whose document is not there holds no keys. -/
theorem Faces.keys_eq_nil (h : k.Faces l s) (hl : l.Sound) (habsent : k.store.held? s = none) :
    l.keys = [] := by
  have hdocument := h.document
  rw [habsent, Option.map_none] at hdocument
  have hwritten : l.written = none :=
    Option.map_eq_none_iff.1 (Option.map_eq_none_iff.1 hdocument.symm)
  rw [Ledger.keys, hl.unwritten hwritten, List.map_nil]

/-- The record of a key, which was there, was taken out of the ledger. -/
def Drops (k : Keeper) (l : Ledger) (key : String) (s : Session) : Prop :=
  key ∈ l.keys ∧ k.Faces (l.drop (documentOptions k.settings) key) s

theorem Drops.of_still (h : k.Drops l key s) (hs : Still s s') : k.Drops l key s' :=
  ⟨h.1, h.2.of_still hs⟩

theorem Tested.of_still (h : Tested l s) (hs : Still s s') : Tested l s' := by
  obtain ⟨rs, older, hdeeds, h⟩ := h
  exact ⟨rs, older, hs.deeds.trans hdeeds, h⟩

/-- The record of a key is taken out of the ledger, unless Terraform does not agree to the rest. -/
theorem Faces.takeOut_meets (h : k.Faces l s) (hl : l.Sound) (hreaches : k.store.Reaches s)
    (key : String) (forget : Bool) :
    (k.takeOut key forget).alone.Meets s
      (fun rest s' => rest = l.keys.filter (· != key) ∧ k.Drops l key s' ∧
        Tested (l.drop (documentOptions k.settings) key) s')
      fun f s' => k.Faces l s' ∧ l.Retains k key s' f ∨ k.Drops l key s' ∧ (k.Denies s' f ∨
        f.IsTerraform ∧ forget = true ∧ Tested (l.drop (documentOptions k.settings) key) s') := by
  unfold takeOut
  simp only [Process.alone_bind, Process.alone_lift, Process.alone_ite]
  rw [meets_bind, Action.meets_read]
  refine ⟨fun present hpresent => ?_, fun e he => .inl ⟨h, .inl (.unseen he)⟩⟩
  cases present with
  | false =>
    have hheld := hreaches.isPresent.symm.trans hpresent
    have hnil : l.keys = [] := h.keys_eq_nil hl (by simpa using hheld)
    refine still_then (Action.keeps_complain _) fun _ t ht => (Action.meets_report _).2
      (.inl ⟨h.of_still ht, .inr (.inl ⟨?_, hnil ▸ rfl⟩)⟩)
    exact hnil ▸ List.not_mem_nil
  | true =>
    simp only [Bool.not_true, Bool.false_eq_true, if_false]
    refine (h.readText_meets hl hreaches).imp_bad (fun f t hf =>
      .inl ⟨hf.1, .inl hf.2⟩) |>.bind fun text s₁ ⟨htext, h₁, hs₁⟩ => ?_
    subst htext
    refine (Document.demandMap_gives hl.holds).bind_meets fun _ s₂ h₂ _ =>
      (Document.keysOf_gives hl.holds).bind_meets fun keys s₃ h₃ hkeys => ?_
    subst hkeys
    have hs₃ := (hs₁.trans_same h₂).trans_same h₃
    have h₃ := (h₁.of_still h₂).of_still h₃
    split
    · next hmissing =>
      have hkey : key ∉ l.keys := by simpa [Ledger.keys] using hmissing
      exact (Action.meets_report _).2 (.inl ⟨h₃, .inr (.inl ⟨hkey, rfl⟩)⟩)
    · next hthere =>
      have hkey : key ∈ l.keys := by simpa [Ledger.keys] using hthere
      refine ((h₃.cutOut_meets hl (Store.isPresent_of_did hpresent hs₃) forget).imp_bad ?_).bind
        fun _ t ht => (meets_pure _).2 ⟨rfl, ⟨hkey, ht.1⟩, ht.2⟩
      rintro f t (⟨ht, hf | hf⟩ | ⟨ht, hf⟩)
      · exact .inl ⟨ht, .inl hf⟩
      · exact .inl ⟨ht, .inr (.inr ⟨hkey, hf⟩)⟩
      · exact .inr ⟨⟨hkey, ht⟩, hf⟩

end Keeper
end InstanceInventory
