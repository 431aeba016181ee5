import InstanceInventory.Proofs.Keeper.Edit

/-! # The deeds of an edit

* `Store.Rewritten.deeds`, `Store.Stopped.deeds` and the like: what was done on the way, and what that
  means for the document.
* `Edit.edit_all_or_nothing`: an edit leaves the document, or replaces it once by a document that holds
  exactly the keys that it should.
* `Edit.edit_runs_in_order`: Terraform is run after the document was written, in a safe order.
-/

namespace InstanceInventory
set_option autoImplicit false
open InstanceInventory.Action (Frame Meets)
open Session (Did Still Calm Follows Ordered)
variable {s s' s'' t : Session} {f : Fault} {text : String} {touched : Set Files.Place}

/-! ## What was done on the way -/

def Deed.IsRead (d : Deed) : Prop :=
  ∃ text, d = .read text

/-- The copies that were made of a document. -/
def keptDeeds (copy : Option Files.Path) : List Deed :=
  copy.toList.map .kept

namespace Store
variable {st : Store} {copy : Option Files.Path} {w : Rewrite}

theorem Backs.did (h : st.Backs copy s s') :
    ∃ changed, Did changed (keptDeeds copy) s s' ∧ s.site st.path ∉ changed := by
  cases copy with
  | none => exact ⟨∅, h.1, Set.notMem_empty _⟩
  | some copy => exact ⟨_, h.did, fun hmem => h.site_ne (Set.mem_singleton_iff.1 hmem).symm⟩

/-- What was done while the document was written anew, and the bytes that it holds then. -/
theorem Rewritten.deeds (h : st.Rewritten touched w copy s s') :
    s'.deeds = .wrote w.result :: (keptDeeds copy ++ .read w.text :: s.deeds) ∧
      s'.progress.cancelled = s.progress.cancelled ∧
      (st.held? s').map Prod.fst = some w.result.toUTF8 := by
  obtain ⟨t, u, hlooked, hbacks, hwrites⟩ := h
  obtain ⟨changed, hkept, -⟩ := hbacks.did
  refine ⟨?_, ?_, ?_⟩
  · rw [hwrites.did.deeds, hkept.deeds, hlooked.did.deeds]
    rfl
  · rw [hwrites.did.cancelled, hkept.cancelled, hlooked.did.cancelled]
  · rw [hwrites.document]
    rfl

/-- What was done until an edit ended with a fault before it wrote the document, and that it left the
document. -/
theorem Stopped.deeds (h : st.Stopped touched f s s') :
    ∃ own, s'.deeds = own ++ s.deeds ∧
      (∀ d ∈ own, d.IsRead ∨ ∃ copy, d = .kept copy) ∧
      (s.site st.path ∉ touched → st.held? s' = st.held? s) ∧
      (∀ text, .read text ∈ own → Document.Broken text → f.IsUnbalanced ∧ ∀ d ∈ own, d.IsRead) ∧
      ∀ text, .read text ∈ own → text = "" ∨ st.text? s = some text := by
  cases h with
  | unread h =>
    exact ⟨[], h.deeds, List.forall_mem_nil _, fun _ => held?_of_still h,
      fun _ hd => absurd hd List.not_mem_nil, fun _ hd => absurd hd List.not_mem_nil⟩
  | looked text h hbroken =>
    have hread : ∀ d ∈ [Deed.read text], d.IsRead := fun d hd => ⟨text, List.mem_singleton.1 hd⟩
    refine ⟨_, h.did.deeds, fun d hd => .inl (hread d hd), held?_of_did h.did, ?_, ?_⟩
    · intro text' hmem hb
      obtain ⟨⟩ := List.mem_singleton.1 hmem
      exact ⟨hbroken hb, hread⟩
    · intro text' hmem
      obtain ⟨⟩ := List.mem_singleton.1 hmem
      exact h.text_eq
  | kept text copy t h hwhole hcopy =>
    obtain ⟨changed, hkept, hdoc⟩ := hcopy.did
    have hmem : ∀ {text'}, .read text' ∈ keptDeeds copy ++ [.read text] → text' = text := by
      intro text' hmem
      rcases List.mem_append.1 hmem with hmem | hmem
      · obtain ⟨copy, -, h⟩ := List.mem_map.1 hmem
        cases h
      · obtain ⟨⟩ := List.mem_singleton.1 hmem
        rfl
    refine ⟨keptDeeds copy ++ [Deed.read text], ?_, ?_, fun hp => ?_, fun text' h' hb => ?_,
      fun text' h' => (hmem h').symm ▸ h.text_eq⟩
    · rw [hkept.deeds, h.did.deeds, List.append_assoc]
    · intro d hd
      rcases List.mem_append.1 hd with hd | hd
      · obtain ⟨copy, -, rfl⟩ := List.mem_map.1 hd
        exact .inr ⟨copy, rfl⟩
      · exact .inl ⟨text, List.mem_singleton.1 hd⟩
    · rw [held?_of_did hkept (h.did.site st.path ▸ hdoc), held?_of_did h.did hp]
    · exact absurd ((hmem h') ▸ hb) hwhole

theorem Declined.deeds (h : st.Declined s s') :
    ∃ text, s'.deeds = .read text :: s.deeds ∧ ¬ Document.Broken text ∧
      (text = "" ∨ st.text? s = some text) ∧ s'.progress.cancelled = true ∧
      (s.Undisturbed (s.site st.path) → st.held? s' = st.held? s) := by
  obtain ⟨text, t, hlooked, hwhole, hstill⟩ := h
  refine ⟨text, hstill.deeds.trans hlooked.did.deeds, hwhole, hlooked.text_eq, hstill.cancelled,
    fun hs => ?_⟩
  have hgivenUp : st.held? t.givenUp = st.held? t := rfl
  rw [held?_of_still hstill, hgivenUp, held?_of_did hlooked.did (Session.notMem_disturbed.2 hs)]

/-- What is read from the copy of a document is the text that was read from the document. -/
theorem Rewritten.text_eq {copy : Files.Path} {ds : List Deed}
    (h : st.Rewritten ∅ w (some copy) s s') (hs : st.Reaches s) (hdid : Did ∅ ds s' t)
    (hread : t.files.readText (t.locate copy) = .ok text) : text = w.text := by
  obtain ⟨content, hfile, raw, hraw, rfl⟩ := Files.Tree.readText_eq_ok.1 hread
  obtain ⟨held, hheld, hcopied, -⟩ := h.copied
  obtain ⟨_, _, hlooked, _⟩ := h
  have htext := hlooked.text? hs
  rw [text?, hheld] at htext
  have hstands : t.files.fileAt? (t.site copy) = some held := by
    rw [hdid.site, hdid.files _ (Set.notMem_empty _), hcopied]
  obtain rfl : held = content := Option.some.inj (hstands.symm.trans (Files.Tree.file_eq_ok.1 hfile).2)
  simpa [hraw] using htext

end Store

namespace Edit
variable {k : Keeper} {e : Edit} {looks : List Deed}

theorem Entered.isRead (h : Entered k looks s t) : ∀ d ∈ looks, d.IsRead :=
  fun d hd => let ⟨text, hd, _, _⟩ := h.looks d hd; ⟨text, hd⟩

/-- What others leave alone while the operator is asked is left alone before the lock is taken. -/
theorem Entered.held? (h : Entered k looks s t) (hs : s.Undisturbed (s.site k.store.path)) :
    k.store.held? t = k.store.held? s := by
  have hnot : s.begun.site k.store.path ∉ s.disturbed ∪ {s.site k.store.lockPath} := by
    rw [Set.mem_union, not_or]
    exact ⟨Session.notMem_disturbed.2 hs, k.store.site_ne_lock s⟩
  exact (Store.held?_of_did h.did hnot).trans rfl

theorem Entered.undisturbed (h : Entered k looks s t) (hs : s.Undisturbed (s.site k.store.path)) :
    t.Undisturbed (t.site k.store.path) := by
  rw [h.did.site]
  exact h.did.undisturbed hs

/-- The text that is read under the lock is that of the document, which others leave alone. -/
theorem Entered.text? {w : Rewrite} {copy : Option Files.Path} {u : Session}
    (h : Entered k looks s t) (hs : s.Undisturbed (s.site k.store.path))
    (hlock : k.store.Reaches t) (hwritten : k.store.Rewritten t.disturbed w copy t u) :
    k.store.text? s = some w.text := by
  obtain ⟨v, _, hlooked, _⟩ := hwritten
  have hread := hlooked.text? hlock
  rwa [Store.text?, h.held? hs] at hread

/-! ## All or nothing -/

/-- The document is left, and the operator gave up or there is a fault. -/
def Leaves (k : Keeper) (s : Session) (r : Except Fault Unit) (own : List Deed) (s' : Session) :
    Prop :=
  (∀ d ∈ own, d.IsRead ∨ ∃ copy, d = .kept copy) ∧
    (s.Undisturbed (s.site k.store.path) → k.store.held? s' = k.store.held? s) ∧
    (r = .ok () → s'.progress.cancelled = true)

/-- What is written in place of a document: the blocks that stay and the block that is added, in a
document that holds exactly the keys that it should, each once. -/
structure Renews (k : Keeper) (e : Edit) (s : Session) (c : Change) (w : Rewrite) : Prop where
  asks : e.Asks k s c
  admits : e.Admits c w.keys
  whole : ¬ Document.Broken w.text
  keys : Document.keys w.text = .ok w.keys
  kept : ∃ removed, Document.splice w.text c.target = .ok ⟨w.kept, removed⟩
  result : w.result = Document.render (Keeper.documentOptions k.settings)
    (w.kept ++ c.added.toList.map Prod.snd)
  keysAfter : Document.keys w.result = .ok (c.keysAfter w.keys)
  nodup : (c.keysAfter w.keys).Nodup

theorem renews_of_fits {c : Change} {w : Rewrite} (hasks : e.Asks k s c)
    (hadmits : e.Admits c w.keys) (h : w.Fits (Keeper.documentOptions k.settings) c) :
    e.Renews k s c w :=
  ⟨hasks, hadmits, h.whole, h.keys, h.kept, h.result, h.keys_result.1, h.keys_result.2⟩

/-- The document is replaced once, by a text that is made of the text that was read last, and
Terraform is run after that. A removal may then put the text that was read back. -/
def Replaces (k : Keeper) (e : Edit) (s : Session) (own : List Deed) (s' : Session) : Prop :=
  ∃ c w copy looks runs, e.Renews k s c w ∧
    (s.Undisturbed (s.site k.store.path) → k.store.text? s = some w.text) ∧
    (∀ d ∈ looks, d.IsRead) ∧ (∀ d ∈ runs, d.IsRun) ∧ Ordered (e.rule c) runs ∧
    s'.progress.cancelled = false ∧
    (own = runs ++ .wrote w.result :: (keptDeeds copy ++ .read w.text :: looks) ∧
        (k.store.held? s').map Prod.fst = some w.result.toUTF8 ∨
      (∃ key forget, e = .remove key forget) ∧
        own = .wrote w.text :: runs ++ .wrote w.result :: (keptDeeds copy ++ .read w.text :: looks) ∧
        (k.store.held? s').map Prod.fst = some w.text.toUTF8)

/-- A document that is broken, once it is read, is reported; nothing else is done than to read it. -/
def RefusesBroken (r : Except Fault Unit) (own : List Deed) : Prop :=
  ∀ text, .read text ∈ own → Document.Broken text →
    (∃ f, r = .error f ∧ f.IsUnbalanced) ∧ ∀ d ∈ own, d.IsRead

/-- What is read is the text of the document, or nothing where the document cannot be reached. -/
def ReadsDocument (k : Keeper) (s : Session) (own : List Deed) : Prop :=
  s.Undisturbed (s.site k.store.path) →
    ∀ text, .read text ∈ own → text = "" ∨ k.store.text? s = some text

/-- An edit leaves the document or replaces it once, and refuses one that is broken. -/
def AllOrNothing (k : Keeper) (e : Edit) (s : Session) (r : Except Fault Unit) (s' : Session) :
    Prop :=
  ∃ own, s'.deeds = own ++ s.deeds ∧ (Leaves k s r own s' ∨ e.Replaces k s own s') ∧
    RefusesBroken r own ∧ ReadsDocument k s own

theorem isRun_of_rule {c : Change} {d : Deed} {older : List Deed} (h : e.rule c d older) :
    d.IsRun := by
  cases d with
  | ran c o => exact ⟨c, o, rfl⟩
  | _ =>
    cases e with
    | create => exact h.elim
    | importInstance id assumeYes => exact h.2.elim
    | remove key forget => exact h.2.elim

theorem isRun_of_ordered {c : Change} {rs : List Deed} (h : Ordered (e.rule c) rs) :
    ∀ d ∈ rs, d.IsRun := by
  induction rs with
  | nil => exact List.forall_mem_nil _
  | cons d rs ih => exact List.forall_mem_cons.2 ⟨isRun_of_rule h.1, ih h.2⟩

/-- What was read in the course of an edit that wrote the document. -/
theorem read_mem_written {runs : List Deed} {copy : Option Files.Path} {read result : String}
    (hruns : ∀ d ∈ runs, d.IsRun)
    (h : .read text ∈ runs ++ .wrote result :: (keptDeeds copy ++ .read read :: looks)) :
    text = read ∨ .read text ∈ looks := by
  simp only [List.mem_append, List.mem_cons, reduceCtorEq, false_or] at h
  rcases h with h | h | h | h
  · obtain ⟨_, _, ⟨⟩⟩ := hruns _ h
  · obtain ⟨_, _, ⟨⟩⟩ := List.mem_map.1 h
  · cases h
    exact .inl rfl
  · exact .inr h

/-- What is read is the text of the document, and is not broken. -/
def ReadsWhole (k : Keeper) (s : Session) (own : List Deed) : Prop :=
  ∀ text, .read text ∈ own → ¬ Document.Broken text ∧
    (s.Undisturbed (s.site k.store.path) → text = "" ∨ k.store.text? s = some text)

theorem ReadsWhole.settles {r : Except Fault Unit} {own : List Deed} (h : ReadsWhole k s own) :
    RefusesBroken r own ∧ ReadsDocument k s own :=
  ⟨fun text hmem hbroken => absurd hbroken (h text hmem).1, fun hs text hmem => (h text hmem).2 hs⟩

theorem Entered.readsWhole (h : Entered k looks s t) : ReadsWhole k s looks := by
  intro text hmem
  obtain ⟨_, ⟨⟩, hwhole, htext⟩ := h.looks _ hmem
  exact ⟨hwhole, fun _ => htext⟩

theorem Entered.text?_eq (h : Entered k looks s t) (hs : s.Undisturbed (s.site k.store.path)) :
    k.store.text? t = k.store.text? s := by
  rw [Store.text?, h.held? hs, Store.text?]

theorem Entered.declined (h : Entered k looks s t) (hdeclined : k.store.Declined t s') :
    AllOrNothing k e s (.ok ()) s' := by
  obtain ⟨text, hown, hwhole, htext, hcancelled, hleft⟩ := hdeclined.deeds
  have hreads : ReadsWhole k s (.read text :: looks) := by
    intro text' hmem
    rcases List.mem_cons.1 hmem with ⟨⟨⟩⟩ | hmem
    · exact ⟨hwhole, fun hs => h.text?_eq hs ▸ htext⟩
    · exact h.readsWhole text' hmem
  refine ⟨.read text :: looks, ?_, .inl ⟨?_, fun hs => ?_, fun _ => hcancelled⟩, hreads.settles⟩
  · rw [hown, h.did.deeds]
    rfl
  · exact List.forall_mem_cons.2 ⟨.inl ⟨text, rfl⟩, fun d hd => .inl (h.isRead d hd)⟩
  · exact (hleft (h.undisturbed hs)).trans (h.held? hs)

theorem Entered.stopped (h : Entered k looks s t) (hstopped : k.store.Stopped t.disturbed f t s') :
    AllOrNothing k e s (.error f) s' := by
  obtain ⟨own, hown, hkinds, hleft, hbroken, htext⟩ := hstopped.deeds
  refine ⟨own ++ looks, ?_, .inl ⟨fun d hd => ?_, fun hs => ?_, nofun⟩, fun text hmem hb => ?_,
    fun hs text hmem => ?_⟩
  · rw [hown, h.did.deeds, List.append_assoc]
    rfl
  · exact (List.mem_append.1 hd).elim (hkinds d) fun hd => .inl (h.isRead d hd)
  · exact (hleft (Session.notMem_disturbed.2 (h.undisturbed hs))).trans (h.held? hs)
  · rcases List.mem_append.1 hmem with hmem | hmem
    · obtain ⟨hf, hreads⟩ := hbroken text hmem hb
      exact ⟨⟨f, rfl, hf⟩, fun d hd => (List.mem_append.1 hd).elim (hreads d) (h.isRead d)⟩
    · exact absurd hb (h.readsWhole text hmem).1
  · rcases List.mem_append.1 hmem with hmem | hmem
    · exact h.text?_eq hs ▸ htext text hmem
    · exact (h.readsWhole text hmem).2 hs

section
variable {w : Rewrite} {copy : Option Files.Path} {u : Session} {c : Change} {runs : List Deed}

/-- What was done until Terraform was run on a document that was written. -/
theorem Entered.written (h : Entered k looks s t) (hlock : k.store.Reaches t)
    (hfits : w.Fits (Keeper.documentOptions k.settings) c)
    (hwritten : k.store.Rewritten t.disturbed w copy t u) (hdid : Did ∅ runs u s')
    (hruns : Ordered (e.rule c) runs) :
    s'.deeds = runs ++ .wrote w.result :: (keptDeeds copy ++ .read w.text :: looks) ++ s.deeds ∧
      s'.progress.cancelled = false ∧ (k.store.held? s').map Prod.fst = some w.result.toUTF8 ∧
      ReadsWhole k s (runs ++ .wrote w.result :: (keptDeeds copy ++ .read w.text :: looks)) := by
  obtain ⟨hown, hcancelled, hresult⟩ := hwritten.deeds
  refine ⟨?_, ?_, ?_, fun text hmem => ?_⟩
  · have hlooks : t.deeds = looks ++ s.deeds := h.did.deeds
    rw [hdid.deeds, hown, hlooks]
    simp only [List.append_assoc, List.cons_append]
  · rw [hdid.cancelled, hcancelled, h.did.cancelled]
    rfl
  · rwa [Store.held?_of_still hdid]
  · rcases read_mem_written (isRun_of_ordered hruns) hmem with rfl | hmem
    · exact ⟨hfits.whole, fun hs => .inr (h.text? hs hlock hwritten)⟩
    · exact h.readsWhole text hmem

end

theorem Goes.allOrNothing {r : Except Fault Unit} (hentered : Entered k looks s t)
    (h : e.Goes k s t r s') : AllOrNothing k e s r s' := by
  cases h with
  | declined h => exact hentered.declined h
  | stopped h => exact hentered.stopped h
  | written c w copy u hasks hlock hadmits hfits hwritten hruns =>
    obtain ⟨runs, hdid, hordered⟩ := hruns
    obtain ⟨hown, hcancelled, hresult, hreads⟩ := hentered.written hlock hfits hwritten hdid hordered
    exact ⟨_, hown, .inr ⟨c, w, copy, looks, runs, renews_of_fits hasks hadmits hfits,
      fun hs => hentered.text? hs hlock hwritten, hentered.isRead, isRun_of_ordered hordered,
      hordered, hcancelled, .inl ⟨rfl, hresult⟩⟩, hreads.settles⟩
  | takenBack key forget w copy u v text he hlock hkey hfits hwritten hruns hcopy hback =>
    obtain ⟨runs, hdid, hordered⟩ := hruns
    have hmore := hwritten.mono (Set.empty_subset t.disturbed)
    obtain ⟨hown, hcancelled, -, hreads⟩ := hentered.written hlock hfits hmore hdid hordered
    obtain rfl := hwritten.text_eq hlock hdid hcopy
    subst he
    refine ⟨_, ?_, .inr ⟨_, w, some copy, looks, runs, renews_of_fits rfl hkey hfits,
      fun hs => hentered.text? hs hlock hmore, hentered.isRead, isRun_of_ordered hordered,
      hordered, hback.did.cancelled.trans hcancelled, .inr ⟨⟨key, forget, rfl⟩, rfl, ?_⟩⟩, ReadsWhole.settles fun text hmem => ?_⟩
    · rw [hback.did.deeds, hown]
      rfl
    · rw [hback.document]
      rfl
    · rcases List.mem_cons.1 hmem with ⟨⟨⟩⟩ | hmem
      exact hreads text hmem

/-- An edit leaves the document, or replaces it once by a document that holds exactly the keys that
it should; one that is broken is refused. -/
theorem edit_all_or_nothing (k : Keeper) (e : Edit) (s : Session) :
    (e.run k).Meets s (fun _ => AllOrNothing k e s (.ok ()))
      fun f => AllOrNothing k e s (.error f) :=
  (e.run_ends k s).imp (fun _ _ ⟨_, _, hentered, h⟩ => h.allOrNothing hentered)
    fun _ _ ⟨_, _, hentered, h⟩ => h.allOrNothing hentered

/-! ## The order of runs -/

/-- Terraform was not run; or the operator did not give up, Terraform was run after the document was
written and not before, in the order that the edit allows, and what was written stood all the while.
A removal may have put the text that it read back after that. -/
def RunsInOrder (k : Keeper) (e : Edit) (s s' : Session) : Prop :=
  ∃ own, s'.deeds = own ++ s.deeds ∧
    ((∀ d ∈ own, ¬ d.IsRun) ∨
      s'.progress.cancelled = false ∧ ∃ c w runs before, e.Renews k s c w ∧
        (∀ d ∈ before, ¬ d.IsRun) ∧ (∀ d ∈ runs, d.IsRun) ∧ Ordered (e.rule c) runs ∧
        (own = runs ++ .wrote w.result :: before ∧
            (k.store.held? s').map Prod.fst = some w.result.toUTF8 ∨
          (∃ key forget, e = .remove key forget) ∧
            own = .wrote w.text :: runs ++ .wrote w.result :: before))

theorem not_isRun_of_isRead {d : Deed} (h : d.IsRead) : ¬ d.IsRun := by
  rintro ⟨c, o, rfl⟩
  obtain ⟨_, ⟨⟩⟩ := h

theorem not_isRun_of_looks {copy : Option Files.Path} {read : String} (h : ∀ d ∈ looks, d.IsRead) :
    ∀ d ∈ keptDeeds copy ++ .read read :: looks, ¬ d.IsRun := by
  intro d hd
  rcases List.mem_append.1 hd with hd | hd
  · obtain ⟨copy, -, rfl⟩ := List.mem_map.1 hd
    rintro ⟨_, _, ⟨⟩⟩
  · rcases List.mem_cons.1 hd with rfl | hd
    · exact not_isRun_of_isRead ⟨read, rfl⟩
    · exact not_isRun_of_isRead (h d hd)

theorem AllOrNothing.runsInOrder {r : Except Fault Unit} (h : AllOrNothing k e s r s') :
    RunsInOrder k e s s' := by
  obtain ⟨own, hown, hleaves | hreplaces, -⟩ := h
  · refine ⟨own, hown, .inl fun d hd => ?_⟩
    rcases hleaves.1 d hd with hread | ⟨copy, rfl⟩
    · exact not_isRun_of_isRead hread
    · rintro ⟨_, _, ⟨⟩⟩
  · obtain ⟨c, w, copy, looks, runs, hrenews, -, hlooks, hruns, hordered, hcancelled, hends⟩ :=
      hreplaces
    exact ⟨own, hown, .inr ⟨hcancelled, c, w, runs, keptDeeds copy ++ .read w.text :: looks, hrenews,
      not_isRun_of_looks hlooks, hruns, hordered,
      hends.imp_right fun ⟨hremove, hback, _⟩ => ⟨hremove, hback⟩⟩⟩

/-- Terraform is run after the document was written, in a safe order. -/
theorem edit_runs_in_order (k : Keeper) (e : Edit) (s : Session) :
    (e.run k).Meets s (fun _ => RunsInOrder k e s) fun _ => RunsInOrder k e s :=
  (e.run_ends k s).imp (fun _ _ ⟨_, _, hentered, h⟩ => (h.allOrNothing hentered).runsInOrder)
    fun _ _ ⟨_, _, hentered, h⟩ => (h.allOrNothing hentered).runsInOrder

end Edit
end InstanceInventory
