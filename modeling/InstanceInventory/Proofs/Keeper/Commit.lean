import InstanceInventory.Proofs.Document.Legible
import InstanceInventory.Proofs.Keeper.History
import InstanceInventory.Proofs.Keeper.Plans
import InstanceInventory.Proofs.Keeper.Remove

/-! # What edits make of the document under the lock

* `Store.HoldsKey`: the keys of the document are distinct, and a certain one is among them.
* `Keeper.Commits`: the text of the document is left, or written anew according to a change.
* `Keeper.add_commits`: a draft is added, or the document is left.
* `Keeper.add_refused`: a key that the document holds is refused, and the document is left.
* `Edit.under_commits`: what an edit makes of the document that it finds under the lock.
* `Edit.creates_of_outcome`, `Edit.refused_of_outcome`: where an instance is created, and where not.
-/

namespace InstanceInventory
set_option autoImplicit false
open InstanceInventory.Action (Meets meets_pure)
open Session (Did Still)
variable {s s' t : Session} {text key : String} {c : Change} {w : Rewrite}

/-! ## Line endings -/

namespace Store
variable {st : Store} {raw : String} {mode : Nat}

/-- The text of the document has unified line endings. -/
theorem return_not_mem (h : st.text? s = some text) : '\r' ∉ text.toList := by
  unfold text? at h
  split at h
  · cases h
    simp
  · obtain ⟨raw, -, rfl⟩ := Option.map_eq_some_iff.1 h
    rw [Text.unifyNewlines, String.toList_ofList]
    exact Text.not_mem_unifyNewlineChars _

theorem text?_of_held? (h : st.held? s = some (raw.toUTF8, mode)) :
    st.text? s = some (Text.unifyNewlines raw) := by
  have hraw : String.fromUTF8? raw.toUTF8 = some raw := (Text.fromUTF8?_eq_some_iff _ _).2 rfl
  rw [text?, h]
  simp only [hraw, Option.map_some]

end Store

theorem Draft.printed_block {d : Draft} {level : Int} {block : String}
    (h : d.block level = .ok block) : Literal.IsPrinted block.toList := by
  rw [Draft.block] at h
  cases hkey : d.key with
  | error e =>
    rw [hkey] at h
    cases h
  | ok key =>
    rw [hkey] at h
    cases h
    exact Literal.printed_renderEntry _ _ _

/-- A new text has unified line endings, like the one before and the block that is added. -/
theorem Rewrite.Fits.return_not_mem {o : Document.Options} (h : w.Fits o c)
    (htext : '\r' ∉ w.text.toList) (hadded : ∀ b ∈ c.added, '\r' ∉ b.2.toList) :
    '\r' ∉ w.result.toList := by
  obtain ⟨removed, hkept⟩ := h.kept
  rw [h.result]
  refine Document.return_not_mem_render o fun b hb => ?_
  rcases List.mem_append.1 hb with hb | hb
  · exact fun hmem => htext (Document.subset_of_mem_splice hkept hb hmem)
  · obtain ⟨p, hp, rfl⟩ := List.mem_map.1 hb
    exact hadded p (Option.mem_toList.1 hp)

/-- While nobody else is at work the text of the document is taken from one text to the next. -/
theorem Store.Rewritten.texts {st : Store} {copy : Option Files.Path} {o : Document.Options}
    (h : st.Rewritten ∅ w copy s s') (hs : st.Reaches s) (hfits : w.Fits o c)
    (hadded : ∀ b ∈ c.added, '\r' ∉ b.2.toList) :
    st.text? s = some w.text ∧ st.text? s' = some w.result := by
  obtain ⟨t, u, hlooked, -, hwrites⟩ := h
  have htext := hlooked.text? hs
  refine ⟨htext, (text?_of_held? hwrites.document).trans ?_⟩
  rw [(Text.unifyNewlines_eq_self_iff _).2 (hfits.return_not_mem (return_not_mem htext) hadded)]

/-! ## Keys of a document -/

/-- The keys of a document are distinct, and a certain one is among them. -/
def Document.HoldsKey (text key : String) : Prop :=
  ∃ ks, keys text = .ok ks ∧ ks.Nodup ∧ key ∈ ks

/-- The same of the document of a store. -/
def Store.HoldsKey (st : Store) (key : String) (s : Session) : Prop :=
  ∃ text, st.text? s = some text ∧ Document.HoldsKey text key

theorem Store.HoldsKey.of_text? {st : Store} (h : st.HoldsKey key s) (hs : st.text? s' = st.text? s) :
    st.HoldsKey key s' := by
  rw [HoldsKey, hs]
  exact h

theorem Store.HoldsKey.of_held? {st : Store} (h : st.HoldsKey key s) (hs : st.held? s' = st.held? s) :
    st.HoldsKey key s' :=
  h.of_text? (text?_congr hs)

/-- A change leaves a key where it is, or puts it at the end. -/
def Change.Spares (c : Change) (key : String) : Prop :=
  c.target ≠ some key ∨ c.added.map Prod.fst = some key

theorem Change.Spares.mem_keysAfter (h : c.Spares key) {keys : List String} (hkey : key ∈ keys) :
    key ∈ c.keysAfter keys := by
  unfold keysAfter
  rcases h with h | h
  · exact List.mem_append_left _ (List.mem_filter.2 ⟨hkey, by simpa using h⟩)
  · obtain ⟨b, hb, rfl⟩ := Option.map_eq_some_iff.1 h
    refine List.mem_append_right _ (List.mem_map_of_mem ?_)
    rw [hb]
    exact List.mem_singleton_self b

theorem Rewrite.Fits.holdsKey {o : Document.Options} (h : w.Fits o c)
    (hkey : key ∈ c.keysAfter w.keys) : Document.HoldsKey w.result key :=
  ⟨_, h.keys_result.1, h.keys_result.2, hkey⟩

namespace Keeper
variable {k : Keeper} {d : Draft}

/-! ## What comes of a section -/

/-- The text of the document is left, or written anew according to a change that is asked for. -/
inductive Commits (k : Keeper) (asked : Change → Prop) (s s' : Session) : Prop
  | left (h : k.store.text? s' = k.store.text? s)
  | written (c : Change) (w : Rewrite) (hasked : asked c) (hfits : w.Fits (documentOptions k.settings) c)
    (hbefore : k.store.text? s = some w.text) (hafter : k.store.text? s' = some w.result)

theorem Commits.holdsKey {asked : Change → Prop} (h : k.Commits asked s s')
    (hspares : ∀ c, asked c → c.Spares key) (hkey : k.store.HoldsKey key s) :
    k.store.HoldsKey key s' := by
  obtain ⟨text, htext, ks, hks, hnodup, hmem⟩ := hkey
  cases h with
  | left h => exact ⟨text, h.trans htext, ks, hks, hnodup, hmem⟩
  | written c w hasked hfits hbefore hafter =>
    obtain rfl : text = w.text := Option.some.inj (htext.symm.trans hbefore)
    obtain rfl : ks = w.keys := Except.ok.inj (hks.symm.trans hfits.keys)
    exact ⟨w.result, hafter, hfits.holdsKey ((hspares c hasked).mem_keysAfter hmem)⟩

/-- Where the document has its bytes the text is left. -/
theorem commits_of_held? {asked : Change → Prop} (h : k.store.held? s' = k.store.held? s) :
    k.Commits asked s s' :=
  .left (Store.text?_congr h)

theorem commits_of_stopped {asked : Change → Prop} {f : Fault} (h : k.store.Stopped ∅ f s s') :
    k.Commits asked s s' :=
  let ⟨_, _, _, hheld, _⟩ := h.deeds
  commits_of_held? (hheld (Set.notMem_empty _))

/-- A draft is put at the end of the document, whose records all stay. -/
def Creates (k : Keeper) (d : Draft) (key : String) (keys : List String) (s s' : Session) : Prop :=
  ∃ (block : String) (w : Rewrite), d.block Record.blockLevel = .ok block ∧ w.keys = keys ∧ key ∉ keys ∧
    w.Fits (documentOptions k.settings) { added := some (key, block) } ∧
    k.store.text? s = some w.text ∧ k.store.text? s' = some w.result

/-- The document holds the key of a draft that was put at its end. -/
theorem Creates.holdsKey {keys : List String} (h : k.Creates d key keys s s') :
    k.store.HoldsKey key s' := by
  obtain ⟨block, w, -, -, -, hfits, -, hafter⟩ := h
  refine ⟨w.result, hafter, hfits.holdsKey ?_⟩
  rw [Change.keysAfter_added]
  exact List.mem_append_right _ (List.mem_singleton_self key)

/-- Under the lock a draft is added to the document, or the document is left. -/
theorem add_commits (k : Keeper) (d : Draft) (key : String) (hs : s.Idle) (hreaches : k.store.Reaches s) :
    (k.add d key).alone.Meets s
      (fun held s' => (held = none → k.store.held? s' = k.store.held? s) ∧
        ∀ keys, held = some keys → k.Creates d key keys s s')
      fun _ s' => k.store.held? s' = k.store.held? s := by
  refine (k.add_meets d key s).imp (fun held s' h => ⟨?_, ?_⟩) fun f s' h => ?_
  · rintro rfl
    obtain ⟨_, _, _, _, _, hheld⟩ := Store.Declined.deeds h
    exact hheld (hs.quiet _)
  · rintro keys rfl
    obtain ⟨w, copy, block, hblock, hkeys, hfresh, hfits, hwritten⟩ := h
    rw [hs.quiet.disturbed_eq] at hwritten
    have htexts := hwritten.texts hreaches hfits (by
      rintro _ ⟨⟩
      exact (Draft.printed_block hblock).return_not_mem)
    exact ⟨block, w, hblock, hkeys, hfresh, hfits, htexts⟩
  · rw [hs.quiet.disturbed_eq] at h
    obtain ⟨_, _, _, hheld, _⟩ := h.deeds
    exact hheld (Set.notMem_empty _)

theorem Places.commits {asked : Change → Prop} {id : String} (h : k.Places d key id s s') (hs : s.Idle)
    (hreaches : k.store.Reaches s)
    (hasked : ∀ block, d.block Record.blockLevel = .ok block → asked ⟨some key, some (key, block)⟩) :
    k.Commits asked s s' := by
  obtain ⟨w, copy, block, t, hblock, hfits, hwritten, runs, hruns, -⟩ := h
  rw [hs.quiet.disturbed_eq] at hwritten
  obtain ⟨hbefore, hafter⟩ := hwritten.texts hreaches hfits (by
    rintro _ ⟨⟩
    exact (Draft.printed_block hblock).return_not_mem)
  exact .written _ w (hasked block hblock) hfits hbefore
    ((Store.text?_of_did hruns (Set.notMem_empty _)).trans hafter)

theorem Removes.commits {forget : Bool} {rest : List String} (h : k.Removes key forget rest s s')
    (hreaches : k.store.Reaches s) : k.Commits (· = { target := some key }) s s' := by
  obtain ⟨w, copy, t, -, -, hfits, hwritten, runs, hruns, -⟩ := h
  obtain ⟨hbefore, hafter⟩ := hwritten.texts hreaches hfits nofun
  exact .written _ w rfl hfits hbefore
    ((Store.text?_of_did hruns (Set.notMem_empty _)).trans hafter)

/-- A removal that is taken back leaves the text of the document. -/
theorem TakesBack.commits {asked : Change → Prop} {forget : Bool} {f : Fault}
    (h : k.TakesBack key forget f s s') : k.Commits asked s s' := by
  obtain ⟨_, copy, _, _, _, wording, -, -, -, -, -, -, hf⟩ := id h
  obtain ⟨-, raw, mode, -, hbefore, -, hafter, -⟩ := h.putsBack wording (some copy.text) hf
  refine .left ?_
  rw [Store.text?_of_held? hafter, Store.text?_of_held? hbefore,
    (Text.unifyNewlines_eq_self_iff _).2 (Store.return_not_mem (Store.text?_of_held? hbefore))]

/-! ## A key that is taken -/

theorem existingName_gives_of_holdsKey (h : Document.HoldsKey text key) :
    (existingName text key).Gives fun _ => True := by
  obtain ⟨ks, hks, hnodup, hkey⟩ := h
  obtain ⟨block, result, hextract, hparse⟩ := Document.exists_extract hks hnodup hkey
  have hblock : (Document.blockOf text key).Gives (· = some block) :=
    (Action.gives_notes _).bind fun _ _ => Action.gives_ofLiteral hextract
  have hread : (Record.read block).Gives fun _ => True := by
    refine (Action.gives_ofLiteral hparse).bind fun _ hv => ?_
    subst hv
    split
    · exact Action.gives_pure trivial
    · exact Action.gives_pure trivial
  refine hblock.bind fun _ hv => ?_
  subst hv
  refine hread.bind fun r _ => ?_
  cases r with
  | ok r => exact Action.gives_pure trivial
  | error e => exact Action.gives_pure trivial

/-- Under the lock a key that the document holds is refused, and nothing is done but to read. -/
theorem add_refused (k : Keeper) (d : Draft) (hreaches : k.store.Reaches s)
    (h : k.store.HoldsKey key s) :
    (k.add d key).alone.Meets s (fun _ _ => False)
      fun f s' => (∃ name, f = .report (.duplicateRecord key name)) ∧ ∃ text, Did ∅ [.read text] s s' := by
  obtain ⟨text, htext, hholds⟩ := h
  obtain ⟨ks, hks, -, hkey⟩ := id hholds
  unfold add
  simp only [Process.alone_bind, Process.alone_lift, Process.alone_ite]
  refine (hreaches.readText_meets htext).imp_bad (fun _ _ => False.elim) |>.bind
    fun read s₁ ⟨hread, h₁⟩ => ?_
  rw [hread]
  have hkeysOf : (Document.keysOf text).Gives (· = ks) :=
    (Action.gives_notes _).bind fun _ _ => Action.gives_ofLiteral hks
  refine hkeysOf.bind_meets fun keys s₂ h₂ hv => ?_
  rw [hv, if_pos (List.contains_iff_mem.2 hkey)]
  exact (existingName_gives_of_holdsKey hholds).bind_meets fun name s₃ h₃ _ =>
    (Action.meets_report _).2 ⟨⟨name, rfl⟩, text, (h₁.then_still h₂).then_still h₃⟩

end Keeper

/-! ## Edits -/

namespace Edit
variable {k : Keeper} {e : Edit}

@[simp] theorem store_operation (k : Keeper) (e : Edit) : (e.operation k).store = k.store := by
  cases e <;> rfl

/-- The changes that an edit may make to the document, by its plan. -/
def Asked (k : Keeper) : (e : Edit) → (e.operation k).Plan → Change → Prop
  | create, p, c =>
    ∃ block, Draft.block p.1 Record.blockLevel = .ok block ∧ c = { added := some (p.2, block) }
  | importInstance .., p, c =>
    ∃ block, Draft.block p.1 Record.blockLevel = .ok block ∧ c = ⟨some p.2, some (p.2, block)⟩
  | remove key _, _, c => c = { target := some key }

/-- Only the removal of a key takes it out of the document. -/
theorem Asked.spares {plan : (e.operation k).Plan} (h : e.Asked k plan c)
    (he : ∀ forget, e ≠ .remove key forget) : c.Spares key := by
  cases e with
  | create =>
    obtain ⟨block, -, rfl⟩ := h
    exact .inl nofun
  | importInstance id assumeYes =>
    obtain ⟨block, -, rfl⟩ := h
    by_cases hkey : plan.2 = key
    · exact .inr (congrArg some hkey)
    · exact .inl fun heq => hkey (Option.some.inj heq)
  | remove other forget =>
    obtain rfl := h
    exact .inl fun heq => he forget (by rw [Option.some.inj heq])

/-- What an edit makes of the document that it finds under the lock. -/
theorem under_commits (plan : (e.operation k).Plan) (hs : s.Idle) (hreaches : k.store.Reaches s) :
    ((e.operation k).under plan).alone.Meets s (fun _ => k.Commits (e.Asked k plan) s)
      fun _ => k.Commits (e.Asked k plan) s := by
  cases e with
  | create =>
    refine (k.add_commits plan.1 plan.2 hs hreaches).imp (fun held s' ⟨hnone, hsome⟩ => ?_)
      fun _ _ h => Keeper.commits_of_held? h
    cases held with
    | none => exact Keeper.commits_of_held? (hnone rfl)
    | some keys =>
      obtain ⟨block, w, hblock, -, -, hfits, hbefore, hafter⟩ := hsome keys rfl
      exact .written _ w ⟨block, hblock, rfl⟩ hfits hbefore hafter
  | importInstance id assumeYes =>
    have hplaced : ∀ {s'}, k.Places plan.1 plan.2 id s s' →
        k.Commits ((importInstance id assumeYes).Asked k plan) s s' :=
      fun h => h.commits hs hreaches fun block hblock => ⟨block, hblock, rfl⟩
    refine (k.place_meets plan.1 plan.2 id assumeYes s).imp (fun isPlaced s' h => ?_) fun f s' h => ?_
    · cases isPlaced with
      | false =>
        obtain ⟨_, _, _, _, _, hheld⟩ := Store.Declined.deeds h
        exact Keeper.commits_of_held? (hheld (hs.quiet _))
      | true => exact hplaced h
    · rw [hs.quiet.disturbed_eq] at h
      exact h.elim Keeper.commits_of_stopped hplaced
  | remove key forget =>
    refine (k.takeOut_meets key forget s).imp (fun rest s' h => h.commits hreaches) ?_
    rintro f s' (⟨-, h⟩ | ⟨-, rest, h⟩ | h)
    · exact Keeper.commits_of_stopped h
    · exact h.commits hreaches
    · exact h.commits

/-- The draft from which an edit creates an instance. -/
def newDraft? (k : Keeper) : (e : Edit) → (e.operation k).Plan → Option Draft
  | create, p => some (Prod.fst p)
  | importInstance .., _ => none
  | remove .., _ => none

/-- The keys of the document in which an edit created an instance. -/
def keysBefore? (k : Keeper) : (e : Edit) → (e.operation k).Outcome → Option (List String)
  | create, held => held
  | importInstance .., _ => none
  | remove .., _ => none

/-- Where an instance is created its draft is put at the end of the document that is found under the
lock. -/
theorem creates_of_outcome {plan : (e.operation k).Plan} {outcome : (e.operation k).Outcome} {d : Draft}
    {keys : List String} (hs : s.Idle) (hreaches : k.store.Reaches s) (hsound : e.IsSound k plan)
    (hdraft : e.newDraft? k plan = some d) (hkey : d.key = .ok key)
    (hkeys : e.keysBefore? k outcome = some keys)
    (halone : ((e.operation k).under plan).alone.outcome s = (.ok outcome, s')) :
    k.Creates d key keys s s' := by
  cases e with
  | create =>
    obtain rfl := Option.some.inj hdraft
    obtain rfl : plan.2 = key := Except.ok.inj (hsound.2.symm.trans hkey)
    exact ((k.add_commits plan.1 plan.2 hs hreaches).of_value halone).2 keys hkeys
  | importInstance id assumeYes => cases hdraft
  | remove other forget => cases hdraft

/-- No instance is created under a key that the document holds. -/
theorem refused_of_outcome {plan : (e.operation k).Plan} {r : Except Fault (e.operation k).Outcome}
    {d : Draft} (hreaches : k.store.Reaches s) (hholds : k.store.HoldsKey key s)
    (hsound : e.IsSound k plan) (hdraft : e.newDraft? k plan = some d) (hkey : d.key = .ok key)
    (halone : ((e.operation k).under plan).alone.outcome s = (r, s')) :
    (∃ name, r = .error (.report (.duplicateRecord key name))) ∧ ∃ text, Did ∅ [.read text] s s' := by
  cases e with
  | create =>
    obtain rfl := Option.some.inj hdraft
    obtain rfl : plan.2 = key := Except.ok.inj (hsound.2.symm.trans hkey)
    have hrefused := k.add_refused plan.1 hreaches hholds
    cases r with
    | ok outcome => exact (hrefused.of_value halone).elim
    | error f =>
      obtain ⟨⟨name, rfl⟩, hdid⟩ := hrefused.of_fault halone
      exact ⟨⟨name, rfl⟩, hdid⟩
  | importInstance id assumeYes => cases hdraft
  | remove other forget => cases hdraft

end Edit
end InstanceInventory
