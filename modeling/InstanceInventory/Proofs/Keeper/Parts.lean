import InstanceInventory.Proofs.Document.Looking
import InstanceInventory.Proofs.Keeper.Frames
import InstanceInventory.Proofs.Terraform

/-! # The parts of an edit

* `Change`, `Rewrite`: what an edit is to do to a document, and the document that comes of it.
* `Store.Looked`, `Store.Stopped`, `Store.Rewritten`: how far an edit came.
* `Keeper.backup_meets`, `Keeper.writeDocument_meets`: the steps that touch files.
* `Keeper.checkDocument_meets`: a check by Terraform touches none.
-/

namespace InstanceInventory
set_option autoImplicit false
open InstanceInventory.Action (Frame Keeps Meets meets_bind meets_pure still_then)
open Session (Did Still Calm Underway Follows)
variable {s s' s'' : Session} {f : Fault} {text : String} {touched : Set Files.Place}

/-! ## Changes of a document -/

/-- What an edit is to do to a document: a key may be cut out, and a key with its block put at the
end. -/
structure Change where
  target : Option String := none
  added : Option (String × String) := none

def Change.keysAfter (c : Change) (keys : List String) : List String :=
  (keys.filter fun k => c.target != some k) ++ c.added.toList.map Prod.fst

/-- How a document is written anew: its text, the keys that it holds, the blocks that stay, and the
text that takes its place. -/
structure Rewrite where
  text : String
  keys : List String
  kept : List String
  result : String

/-- A document is written anew according to a change: the new text is made of the blocks that stay
and the block that is added, and it passes the check for the keys that it should hold. -/
structure Rewrite.Fits (w : Rewrite) (o : Document.Options) (c : Change) : Prop where
  whole : ¬ Document.Broken w.text
  keys : Document.keys w.text = .ok w.keys
  kept : ∃ removed, Document.splice w.text c.target = .ok ⟨w.kept, removed⟩
  result : w.result = Document.render o (w.kept ++ c.added.toList.map Prod.snd)
  flawless : Document.flaw? w.result (c.keysAfter w.keys) = .ok none

theorem Change.keysAfter_added (key block : String) (keys : List String) :
    Change.keysAfter { added := some (key, block) } keys = keys ++ [key] :=
  congrArg (· ++ [key]) (List.filter_eq_self.2 fun _ _ => rfl)

theorem Change.keysAfter_target (target : String) (added : Option (String × String))
    (keys : List String) :
    Change.keysAfter ⟨some target, added⟩ keys =
      keys.filter (· != target) ++ added.toList.map Prod.fst := by
  have h : (fun k => some target != some k) = fun k => k != target := by
    funext k
    rw [bne_comm]
    rfl
  rw [keysAfter, h]

/-- The new document holds exactly the keys that it should, each once. -/
theorem Rewrite.Fits.keys_result {w : Rewrite} {o : Document.Options} {c : Change}
    (h : w.Fits o c) :
    Document.keys w.result = .ok (c.keysAfter w.keys) ∧ (c.keysAfter w.keys).Nodup :=
  Document.keys_of_flaw? h.flawless

/-! ## How far an edit came -/

namespace Store
variable {st : Store}

/-- The document was read. Others may have touched certain places since then. -/
structure Looked (st : Store) (touched : Set Files.Place) (text : String) (s s' : Session) :
    Prop where
  did : Did touched [.read text] s s'
  shows : ∃ t, Still s t ∧ st.Shows t text

theorem Looked.then_still (h : st.Looked touched text s s') (hs : Still s' s'') :
    st.Looked touched text s s'' :=
  ⟨h.did.then_still hs, h.shows⟩

theorem Looked.then_calm (h : st.Looked s.disturbed text s s') (hs : Calm s' s'') :
    st.Looked s.disturbed text s s'' :=
  ⟨(h.did.then_calm hs).mono (Set.union_self _).subset, h.shows⟩

/-- The text that was read is that of the document, where the document can be reached. -/
theorem Looked.text? (h : st.Looked touched text s s') (hs : st.Reaches s) :
    st.text? s = some text := by
  obtain ⟨t, ht, hshows⟩ := h.shows
  rw [← text?_of_did ht (Set.notMem_empty _)]
  exact (hs.of_did ht).text?_of_shows hshows

/-- Where the document cannot be reached nothing is read. -/
theorem Looked.text_eq (h : st.Looked touched text s s') : text = "" ∨ st.text? s = some text := by
  obtain ⟨t, ht, ⟨-, rfl⟩ | hread⟩ := h.shows
  · exact .inl rfl
  · obtain ⟨content, hfile, raw, hraw, rfl⟩ := Files.Tree.readText_eq_ok.1 hread
    rw [← text?_of_did ht (Set.notMem_empty _), Store.text?, held?_of_file hfile]
    simp [hraw]

/-- An edit ended with a fault before it wrote the document: the document could not be read, or it
was read, or it was also copied. One that is broken is reported, and not copied. -/
inductive Stopped (st : Store) (touched : Set Files.Place) (f : Fault) (s s' : Session) : Prop
  | unread (h : Still s s')
  | looked (text : String) (h : st.Looked touched text s s')
    (hbroken : Document.Broken text → f.IsUnbalanced)
  | kept (text : String) (copy : Option Files.Path) (t : Session) (h : st.Looked touched text s t)
    (hwhole : ¬ Document.Broken text) (hcopy : st.Backs copy t s')

theorem Looked.mono {more : Set Files.Place} (h : st.Looked touched text s s')
    (hsub : touched ⊆ more) : st.Looked more text s s' :=
  ⟨h.did.mono hsub, h.shows⟩

theorem Stopped.mono {more : Set Files.Place} (h : st.Stopped touched f s s')
    (hsub : touched ⊆ more) : st.Stopped more f s s' := by
  cases h with
  | unread h => exact .unread h
  | looked text h hbroken => exact .looked text (h.mono hsub) hbroken
  | kept text copy t h hwhole hcopy => exact .kept text copy t (h.mono hsub) hwhole hcopy

/-- The operator gave up after the document was read. -/
def Declined (st : Store) (s s' : Session) : Prop :=
  ∃ text t, st.Looked s.disturbed text s t ∧ ¬ Document.Broken text ∧ Still t.givenUp s'

theorem Declined.then_still (h : st.Declined s s') (hs : Still s' s'') : st.Declined s s'' :=
  let ⟨text, t, hlooked, hwhole, ht⟩ := h
  ⟨text, t, hlooked, hwhole, Frame.trans ht hs⟩

/-- An edit read the document, copied it if it was there, and wrote it anew. -/
def Rewritten (st : Store) (touched : Set Files.Place) (w : Rewrite) (copy : Option Files.Path)
    (s s' : Session) : Prop :=
  ∃ t u, st.Looked touched w.text s t ∧ st.Backs copy t u ∧ st.Writes w.result u s'

theorem Rewritten.then_still {w : Rewrite} {copy : Option Files.Path}
    (h : st.Rewritten touched w copy s s') (hs : Still s' s'') :
    st.Rewritten touched w copy s s'' :=
  let ⟨t, u, hlooked, hbacks, hwrites⟩ := h
  ⟨t, u, hlooked, hbacks, hwrites.then_still hs⟩

theorem Rewritten.mono {w : Rewrite} {copy : Option Files.Path} {more : Set Files.Place}
    (h : st.Rewritten touched w copy s s') (hsub : touched ⊆ more) :
    st.Rewritten more w copy s s' :=
  let ⟨t, u, hlooked, hbacks, hwrites⟩ := h
  ⟨t, u, hlooked.mono hsub, hbacks, hwrites⟩

/-- While nobody else is at work the copy of a document that is written anew holds its bytes and its
mode, and the document keeps the mode. -/
theorem Rewritten.copied {w : Rewrite} {copy : Files.Path} (h : st.Rewritten ∅ w (some copy) s s') :
    ∃ content, st.held? s = some content ∧ s'.files.fileAt? (s'.site copy) = some content ∧
      s'.site copy ≠ s'.site st.path ∧ st.held? s' = some (w.result.toUTF8, content.2) := by
  obtain ⟨t, u, hlooked, hbacks, hwrites⟩ := h
  have hkept : st.Kept copy t u := hbacks
  obtain ⟨content, hheld, hcopied⟩ := hkept.content
  have hne : u.site copy ≠ u.site st.path := by
    rw [hkept.did.site, hkept.did.site]
    exact hkept.site_ne
  refine ⟨content, (held?_of_still hlooked.did).symm.trans hheld, ?_, ?_, ?_⟩
  · rw [hwrites.did.site, hwrites.did.files _ hne, hkept.did.site, hcopied]
  · rw [hwrites.did.site, hwrites.did.site]
    exact hne
  · rw [hwrites.document, hkept.held?, hheld]
    rfl

theorem Backs.then_still {copy : Option Files.Path} (h : st.Backs copy s s') (hs : Still s' s'') :
    st.Backs copy s s'' := by
  cases copy with
  | none => exact ⟨h.1.then_still hs, h.2⟩
  | some copy =>
    obtain ⟨content, hheld, hcopied⟩ := h.content
    exact { h with
      did := h.did.then_still hs
      directories := fun q hq => hs.directories q (Set.notMem_empty q) (h.directories q hq)
      content := ⟨content, hheld, (hs.files _ (Set.notMem_empty _)).trans hcopied⟩
      reached := by
        rw [hs.locate, hs.site]
        exact Files.Tree.place_mono (fun q => hs.directories q (Set.notMem_empty q)) h.reached }

theorem Stopped.then_still (h : st.Stopped touched f s s') (hs : Still s' s'') :
    st.Stopped touched f s s'' := by
  cases h with
  | unread h => exact .unread (Frame.trans h hs)
  | looked text h hbroken => exact .looked text (h.then_still hs) hbroken
  | kept text copy t h hwhole hcopy => exact .kept text copy t h hwhole (hcopy.then_still hs)

end Store

/-- A fault that ends an edit of a document that is not broken before the document is written. -/
theorem Store.Looked.stopped {st : Store} (h : st.Looked touched text s s')
    (hwhole : ¬ Document.Broken text) (hs : Still s' s'') : st.Stopped touched f s s'' :=
  .looked text (h.then_still hs) fun hbroken => absurd hbroken hwhole

theorem Store.Looked.cancel_meets {st : Store} (h : st.Looked s.disturbed text s s')
    (hwhole : ¬ Document.Broken text) (message : String) {bad : Fault → Session → Prop} :
    (Action.cancel message).Meets s' (fun _ => st.Declined s) bad := by
  exact still_then (Action.keeps_status _) fun _ t ht =>
    (Action.meets_modify _).2 ⟨text, t, h.then_still ht, hwhole, Frame.refl _⟩

namespace Keeper
variable {k : Keeper}

theorem ofShape_meets {α : Type} (v : Except ShapeFault α) (s : Session) :
    (Action.ofShape v).Meets s (fun a s' => s' = s ∧ v = .ok a) fun _ s' => s' = s := by
  cases v with
  | ok a => exact (meets_pure _).2 ⟨rfl, rfl⟩
  | error e => exact (Action.meets_throw _).2 rfl

/-- The document is read under the lock. -/
theorem readText_meets (k : Keeper) (touched : Set Files.Place) (s : Session) :
    k.store.readText.Meets s (fun text s' => k.store.Looked touched text s s')
      fun f s' => k.store.Stopped touched f s s' ∧ k.store.Denies s' f :=
  (k.store.readText_meets s).imp (fun _ _ ⟨h, _, hshows⟩ =>
      ⟨h.mono (Set.empty_subset _), s, .refl ∅ s, hshows⟩)
    fun _ _ h => ⟨.unread (h.1 ▸ .refl ∅ s), h.1 ▸ h.2⟩

/-- The keys of the document that was read. One that is broken holds none. -/
theorem keysOf_meets (k : Keeper) (h : k.store.Looked touched text s s') :
    (Document.keysOf text).Meets s'
      (fun keys t => k.store.Looked touched text s t ∧ Document.keys text = .ok keys)
      fun f t => k.store.Stopped touched f s t ∧ f.IsOfDocument := by
  refine (Document.keysOf_meets text s').imp (fun _ _ hk => ⟨h.then_still hk.1, hk.2⟩) ?_
  intro f t ⟨ht, e, he, hf⟩
  refine ⟨.looked text (h.then_still ht) fun hbroken => ?_, hf ▸ .ofLiteral e⟩
  rw [hbroken.keys] at he
  cases he

/-- What is kept of the document before it is replaced. -/
theorem backup_meets (k : Keeper) (s : Session) :
    k.backup.Meets s (fun copy s' => k.store.Backs copy s s')
      fun f s' => Still s s' ∧ k.store.Denies s' f := by
  refine (k.store.backup_meets s).bind fun copy s' h => ?_
  cases copy with
  | none => exact (meets_pure _).2 h
  | some copy =>
    exact still_then (Action.keeps_success _) fun _ t ht =>
      still_then (Action.keeps_step _ _ _) fun _ u hu =>
        (meets_pure _).2 (h.then_still (Frame.trans ht hu))

/-- A document that passes its check is written in place of the one before. -/
theorem writeDocument_meets (k : Keeper) (blocks expected : List String) (s : Session) :
    (k.writeDocument blocks expected).Meets s
      (fun _ s' =>
        k.store.Writes (Document.render (documentOptions k.settings) blocks) s s' ∧
        Document.flaw? (Document.render (documentOptions k.settings) blocks) expected = .ok none)
      fun f s' => Still s s' ∧ (f.IsOfDocument ∨ k.store.Denies s' f) := by
  unfold writeDocument
  dsimp only
  generalize Document.render (documentOptions k.settings) blocks = text
  refine (Document.demandKeys_meets text expected s).imp_bad (fun f t ht => ⟨ht.1, .inl ht.2⟩)
    |>.bind fun _ t ⟨ht, hflaw⟩ => ?_
  exact (k.store.write_meets text t).imp (fun _ u hu => ⟨hu.after_still ht, hflaw⟩)
    fun f u hu => ⟨ht.then_still hu.1, .inr hu.2⟩

/-- A document is written anew according to a change, once it was read and copied. -/
theorem rewrite_meets {c : Change} {keys blocks : List String} {removed : Option String}
    {copy : Option Files.Path} (h : k.store.Looked touched text s s')
    (hwhole : ¬ Document.Broken text) (hkeys : Document.keys text = .ok keys) (hcopy : k.store.Backs copy s' s'')
    (hsplice : Document.splice text c.target = .ok ⟨blocks, removed⟩) :
    (k.writeDocument (blocks ++ c.added.toList.map Prod.snd) (c.keysAfter keys)).Meets s''
      (fun _ t => ∃ w : Rewrite, w.text = text ∧ w.keys = keys ∧
        w.Fits (documentOptions k.settings) c ∧ k.store.Rewritten touched w copy s t)
      fun f t => k.store.Stopped touched f s t ∧ (f.IsOfDocument ∨ k.store.Denies t f) := by
  refine (k.writeDocument_meets _ _ s'').imp (fun _ t ⟨hwrites, hflaw⟩ => ?_) fun f t ht =>
    ⟨.kept text copy s' h hwhole (hcopy.then_still ht.1), ht.2⟩
  exact ⟨⟨text, keys, blocks, _⟩, rfl, rfl, ⟨hwhole, hkeys, ⟨removed, hsplice⟩, rfl, hflaw⟩,
    s', s'', h, hcopy, hwrites⟩

/-- The document is checked: it is successfully validated at the end. -/
def Validated (rs : List Deed) : Prop :=
  ∃ out err, .ran .validate (.finished 0 out err) ∈ rs

/-- A run that belongs to a check of the document. -/
def IsCheck (d : Deed) : Prop :=
  ∃ o, d = .ran (.init false) o ∨ d = .ran .validate o

theorem checkDocument_meets (k : Keeper) {rule : Deed → List Deed → Prop}
    (hrule : ∀ d rs, IsCheck d → Session.Succeeds rs → rule d rs) (s : Session) :
    k.checkDocument.Meets s
      (fun _ s' => ∃ rs, Underway rule rs s s' ∧ Validated rs ∧ ∀ d ∈ rs, IsCheck d)
      fun f s' => k.StopsCheck s' f ∧ Follows rule s s' := by
  unfold checkDocument ensureInitialized
  rw [meets_bind, meets_bind, Action.meets_read]
  refine ⟨fun isThere _ => ?_, fun e he => ⟨.inr (.inr ⟨e, rfl, he⟩), .refl rule s⟩⟩
  have hvalidate : ∀ rs t, Underway rule rs s t → (∀ d ∈ rs, IsCheck d) →
      (do let _ ← k.terraform.run .validate : Action Unit).Meets t
        (fun _ s' => ∃ rs, Underway rule rs s s' ∧ Validated rs ∧ ∀ d ∈ rs, IsCheck d)
        fun f s' => k.StopsCheck s' f ∧ Follows rule s s' := by
    intro rs t ht hrs
    refine (k.terraform.run_meets .validate ht fun o => hrule _ _ ⟨o, .inr rfl⟩ ht.succeeds)
      |>.imp_bad (fun f s' h => ⟨.inl h.1, h.2⟩) |>.bind fun _ s' ⟨out, err, h⟩ => ?_
    exact (meets_pure _).2 ⟨_, h, ⟨out, err, List.mem_cons_self ..⟩,
      List.forall_mem_cons.2 ⟨⟨_, .inr rfl⟩, hrs⟩⟩
  split
  · refine still_then (Action.keeps_status _) fun _ s₁ h₁ => ?_
    have hunder := (Underway.refl rule s).then_still h₁
    refine (k.terraform.run_meets (.init false) hunder fun o =>
        hrule _ _ ⟨o, .inl rfl⟩ hunder.succeeds)
      |>.imp_bad (fun f s' h => ⟨.inl h.1, h.2⟩) |>.bind fun _ s₂ ⟨out, err, h₂⟩ => ?_
    exact (meets_pure _).2 (hvalidate _ _ h₂ (List.forall_mem_singleton.2 ⟨_, .inl rfl⟩))
  · exact (meets_pure _).2 (hvalidate _ _ (.refl rule s) fun _ h => nomatch h)

end Keeper
end InstanceInventory
