import InstanceInventory.Keeper.Inspect
import InstanceInventory.Proofs.Keeper.History

/-! # Backups

* `Store.Spares`: the backups of a document stay as they are.
* `Errand`, `Errand.run_spares`: every operation of a keeper spares them.
* `Keeper.Run`: operations one after another, at any times.
* `Edit.replaced_versions_kept`: what an edit replaces was copied before under a name that was free,
  and no later operation touches the copy.
-/

namespace InstanceInventory
set_option autoImplicit false
open InstanceInventory.Action (Frame Keeps Meets keeps_bind keeps_pure meets_bind meets_pure)
open Session (Did Still Calm Follows)
variable {s s' s'' t u : Session} {st : Store}

namespace Store

/-- The place of a backup, by its moment and its number. -/
def backupSite (st : Store) (s : Session) (m : Moment) (number : Nat) : Files.Place :=
  s.site (candidate (st.backupBase m) number)

theorem backupSite_eq (st : Store) (s : Session) (m : Moment) (number : Nat) :
    st.backupSite s m number = s.site st.backupDirectory ++ [st.backupName m number] :=
  st.site_candidate s m number

/-- A backup stands at another place than the document that was written. -/
theorem backupSite_ne (s : Session) (h : st.path.name ≠ "..") (m : Moment) (number : Nat) :
    st.backupSite s m number ≠ s.site st.path := by
  rw [backupSite_eq, site_path s h]
  intro heq
  have hname := List.singleton_inj.1 (List.append_inj' heq rfl).2
  have hlen := st.length_backupName m number
  rw [hname] at hlen
  omega

/-- From one session to another the backups of a document stay as they are, but for what others
do. -/
structure Spares (st : Store) (s s' : Session) : Prop where
  directory : s'.directory = s.directory
  answers : s'.answers ⊆ s.answers
  backups : ∀ m n content, s.Undisturbed (st.backupSite s m n) →
    s.files.fileAt? (st.backupSite s m n) = some content →
    s'.files.fileAt? (st.backupSite s m n) = some content

theorem Spares.site (h : st.Spares s s') (path : Files.Path) : s'.site path = s.site path := by
  rw [Session.site, Session.site, Session.locate, Session.locate, h.directory]

theorem Spares.undisturbed {p : Files.Place} (h : st.Spares s s') (hs : s.Undisturbed p) :
    s'.Undisturbed p :=
  fun a ha => hs a (h.answers ha)

theorem Spares.refl (s : Session) : st.Spares s s :=
  ⟨rfl, fun _ => id, fun _ _ _ _ => id⟩

theorem Spares.trans (h : st.Spares s s') (h' : st.Spares s' s'') : st.Spares s s'' where
  directory := h'.directory.trans h.directory
  answers := fun _ ha => h.answers (h'.answers ha)
  backups m n content hs hcontent := by
    have hsite : st.backupSite s' m n = st.backupSite s m n := h.site _
    have h' := h'.backups m n content
    rw [hsite] at h'
    exact h' (h.undisturbed hs) (h.backups m n content hs hcontent)

/-- Places of which no backup is one may change. -/
theorem spares_of_did {changed : Set Files.Place} {ds : List Deed} (h : Did changed ds s s')
    (hchanged : ∀ m n content, s.Undisturbed (st.backupSite s m n) →
      s.files.fileAt? (st.backupSite s m n) = some content → st.backupSite s m n ∉ changed) :
    st.Spares s s' where
  directory := h.directory
  answers := h.answers
  backups m n content hs hcontent :=
    (h.files _ (hchanged m n content hs hcontent)).trans hcontent

theorem spares_of_still {ds : List Deed} (h : Did ∅ ds s s') : st.Spares s s' :=
  spares_of_did h fun _ _ _ _ _ => Set.notMem_empty _

theorem spares_of_calm (h : Calm s s') : st.Spares s s' :=
  spares_of_did h fun _ _ _ hs _ => Session.notMem_disturbed.2 hs

/-- What a session holds beside its files and answers does not matter. -/
theorem spares_of_same (hfiles : s'.files = s.files) (hdirectory : s'.directory = s.directory)
    (hanswers : s'.answers = s.answers) : st.Spares s s' :=
  ⟨hdirectory, hanswers ▸ fun _ => id, fun _ _ _ _ h => hfiles ▸ h⟩

instance : Frame.Requests st.Spares where
  refl := .refl
  trans := .trans
  shown _ _ := spares_of_same rfl rfl rfl
  steps _ _ := spares_of_same rfl rfl rfl
  request _ _ _ := spares_of_same rfl rfl rfl
  waited _ _ := spares_of_same rfl rfl rfl

instance : Frame.Marks st.Spares where
  progress _ _ := spares_of_same rfl rfl rfl

instance : Frame.Answers st.Spares where
  answer s _ _ h := spares_of_calm (Frame.Answers.answer s _ _ h)

instance : Frame.Runs st.Spares where
  did _ _ := spares_of_same rfl rfl rfl
  run _ _ _ _ := spares_of_same rfl rfl rfl

/-! ## The steps of an edit -/

variable {text : String} {touched : Set Files.Place} {f : Fault} {copy : Option Files.Path}
  {w : Rewrite}

theorem Writes.spares (h : st.Writes text s s') : st.Spares s s' :=
  spares_of_did h.did fun m n _ _ _ hmem => backupSite_ne s h.proper m n hmem

theorem Backs.spares (h : st.Backs copy s s') : st.Spares s s' := by
  cases copy with
  | none => exact spares_of_still h.1
  | some copy =>
    have h : st.Kept copy s s' := h
    refine spares_of_did h.did fun m n content _ hcontent hmem => ?_
    have hfree := h.fresh
    rw [← Set.mem_singleton_iff.1 hmem] at hfree
    simp [Files.Tree.fileAt?, hfree] at hcontent

theorem Looked.spares (h : st.Looked touched text s s') (htouched : touched ⊆ s.disturbed) :
    st.Spares s s' :=
  spares_of_did h.did fun _ _ _ hs _ hmem => htouched hmem hs

theorem Rewritten.spares (h : st.Rewritten touched w copy s s') (htouched : touched ⊆ s.disturbed) :
    st.Spares s s' :=
  let ⟨_, _, hlooked, hbacks, hwrites⟩ := h
  ((hlooked.spares htouched).trans hbacks.spares).trans hwrites.spares

theorem Stopped.spares (h : st.Stopped s.disturbed f s s') : st.Spares s s' := by
  cases h with
  | unread h => exact spares_of_still h
  | looked text h _ => exact h.spares subset_rfl
  | kept text copy t h _ hcopy => exact (h.spares subset_rfl).trans hcopy.spares

theorem Declined.spares (h : st.Declined s s') : st.Spares s s' :=
  let ⟨_, t, hlooked, _, hstill⟩ := h
  have hgivenUp : st.Spares t t.givenUp := spares_of_same rfl rfl rfl
  (hlooked.spares subset_rfl).trans (hgivenUp.trans (spares_of_still hstill))

end Store

namespace Edit
variable {k : Keeper} {e : Edit} {looks : List Deed}

theorem spares_begun (s : Session) : k.store.Spares s s.begun :=
  Store.spares_of_same rfl rfl rfl

theorem Entered.spares (h : Entered k looks s t) : k.store.Spares s t := by
  refine (spares_begun s).trans (Store.spares_of_did h.did fun m n _ hs _ hmem => ?_)
  rcases hmem with hmem | hmem
  · exact hmem hs
  · exact k.store.site_candidate_ne_lock s m n hmem

theorem Goes.spares {r : Except Fault Unit} (h : e.Goes k s t r s') : k.store.Spares t s' := by
  cases h with
  | declined h => exact h.spares
  | stopped h => exact h.spares
  | written c w copy u _ _ _ _ hwritten hruns =>
    obtain ⟨_, hdid, _⟩ := hruns
    exact (hwritten.spares subset_rfl).trans (Store.spares_of_still hdid)
  | takenBack key forget w copy u v text _ _ _ _ hwritten hruns _ hback =>
    obtain ⟨_, hdid, _⟩ := hruns
    exact ((hwritten.spares (Set.empty_subset _)).trans (Store.spares_of_still hdid)).trans
      hback.spares

end Edit

/-! ## Every operation -/

namespace Store

/-! ### Copies of the state -/

open Files (IsName follow)

/-- A step from a place that is not the root leads to a place at another depth, and so do two steps
with the same name. -/
theorem length_follow_ne {before : Files.Place} (h : before ≠ []) (name : String) :
    (follow before [name]).length ≠ before.length ∧
      (follow before [name, name]).length ≠ before.length := by
  have hpos := List.length_pos_iff.2 h
  simp only [Files.follow_cons, Files.follow_nil]
  split
  · constructor
    · rw [List.length_dropLast]
      omega
    · rw [List.length_dropLast, List.length_dropLast]
      omega
  · simp

/-- The directory of a snapshot stands among the backups. -/
def IsSnapshotDirectory (st : Store) (directory : Files.Path) : Prop :=
  ∃ name, ∀ s : Session, s.site directory = s.site st.backupDirectory ++ [name]

/-- A copy in the directory of a snapshot stands beside no backup. -/
theorem copyFile_spares {source directory copy : Files.Path} {files : Files.Tree}
    (hdirectory : st.IsSnapshotDirectory directory) (hname : IsName source.name)
    (h : s.files.copyFile (s.locate source) (s.locate (directory.child source.name)) =
      .ok (files, copy)) : st.Spares s { s with files } := by
  obtain ⟨name, hsite⟩ := hdirectory
  obtain ⟨hcopy, -, -, -, hothers⟩ := Files.Tree.copyFile_ok h
  have hsource : (s.locate source).name = source.name := hname.name_join s.directory
  have hbefore : s.site directory ≠ [] := by
    rw [hsite s]
    exact List.append_ne_nil_of_right_ne_nil _ (List.cons_ne_nil _ _)
  have htarget : (s.locate (directory.child source.name)).target =
      follow (s.site directory) [source.name] := by
    rw [hname.child]
    exact s.site_step _ _ _
  have hlen : copy.target.length ≠ (s.site directory).length := by
    have hne := length_follow_ne hbefore source.name
    rw [hcopy, hsource]
    split
    · rw [hname.target_child, htarget, ← Files.follow_append]
      exact hne.2
    · rw [htarget]
      exact hne.1
  have hdid : Did {copy.target} [] s { s with files } := Session.did_files fun p hp => hothers p hp
  refine spares_of_did hdid fun m n _ _ _ hmem => hlen ?_
  rw [← Set.mem_singleton_iff.1 hmem, backupSite_eq, hsite s]
  simp

theorem spares_copyAll {directory : Files.Path} (hdirectory : st.IsSnapshotDirectory directory)
    {sources : List Files.Path} (hnames : ∀ source ∈ sources, IsName source.name) :
    (copyAll directory sources).Keeps st.Spares fun _ => True := by
  induction sources with
  | nil => exact keeps_pure _
  | cons source sources ih =>
    obtain ⟨hname, hnames⟩ := List.forall_mem_cons.1 hnames
    have hrest := ih hnames
    unfold copyAll
    refine keeps_bind (Action.keeps_read _).any fun present => ?_
    split
    · refine keeps_bind (Action.keeps_look _) fun inside => keeps_bind ?_ fun _ =>
        keeps_bind hrest fun _ => keeps_pure _
      intro s
      refine Action.meets_change.2 ⟨fun files hfiles => ?_, fun _ _ => ⟨.refl s, trivial⟩⟩
      cases hcopied : s.files.copyFile (s.locate source) (s.locate (directory.child source.name)) with
      | error e =>
        rw [hcopied] at hfiles
        cases hfiles
      | ok result =>
        rw [hcopied] at hfiles
        obtain rfl := Except.ok.inj hfiles
        exact copyFile_spares hdirectory hname hcopied
    · exact hrest

end Store

namespace Keeper
variable {k : Keeper}

/-- What touches the backups in no way, whatever fault it ends with. -/
abbrev Minds (k : Keeper) {α : Type} (act : Action α) : Prop :=
  act.Keeps k.store.Spares fun _ => True

theorem minds_stateList (k : Keeper) : k.Minds k.terraform.stateList := by
  unfold Terraform.Runner.stateList
  refine keeps_bind (k.terraform.keeps_start .stateList).any fun ⟨status, stdout, stderr⟩ => ?_
  dsimp only
  split
  · exact keeps_pure _
  · split
    · exact keeps_bind (Action.keeps_note _) fun _ => keeps_pure _
    · exact Action.keeps_throw trivial

theorem minds_step (k : Keeper) (name : String) (succeeded : Bool) (details : String) :
    k.Minds (Action.step name succeeded details) :=
  Action.keeps_step _ _ _

theorem minds_readRecords (k : Keeper) (text : String) (keys : List String) :
    k.Minds (readRecords text keys) := by
  induction keys with
  | nil => exact keeps_pure _
  | cons key keys ih =>
    have hrest : ∀ record : Option InstanceRecord, k.Minds (do
        return (key, record) :: (← readRecords text keys)) := fun record =>
      keeps_bind ih fun _ => keeps_pure _
    unfold readRecords
    refine keeps_bind (Document.keeps_blockOf text key).any fun block => ?_
    cases block with
    | none => exact hrest none
    | some block =>
      refine keeps_bind (Record.keeps_read block).any fun r => ?_
      cases r with
      | ok r => exact hrest (some r)
      | error message => exact keeps_bind (Action.keeps_warn _) fun _ => hrest none

theorem minds_listInstances (k : Keeper) : k.Minds k.listInstances := by
  unfold listInstances listTracked listConfigured listLive
  refine keeps_bind Action.keeps_begin fun _ => keeps_bind ?_ fun tracked =>
    keeps_bind ?_ fun configured => keeps_bind ?_ fun live => keeps_pure _
  · exact keeps_onTerraformFailure
      (keeps_bind k.minds_stateList fun _ => keeps_bind (k.minds_step _ _ _) fun _ => keeps_pure _)
      fun _ _ => keeps_bind (Action.keeps_warn _) fun _ =>
        keeps_bind (k.minds_step _ _ _) fun _ => keeps_pure _
  · exact keeps_bind k.store.keeps_readText.any fun text =>
      keeps_bind (Document.keeps_keysOf text).any fun keys =>
      keeps_bind (k.minds_readRecords text keys) fun _ =>
      keeps_bind (k.minds_step _ _ _) fun _ => keeps_pure _
  · exact Action.keeps_recover
      (keeps_bind k.client.keeps_listInstances.any fun _ =>
        keeps_bind (k.minds_step _ _ _) fun _ => keeps_pure _)
      fun _ _ => keeps_bind (Action.keeps_warn _) fun _ =>
        keeps_bind (k.minds_step _ _ _) fun _ => keeps_pure _

theorem minds_documentTrouble? (k : Keeper) : k.Minds k.documentTrouble? := by
  unfold documentTrouble?
  refine keeps_bind (Action.keeps_read _).any fun present => ?_
  split
  · refine keeps_bind k.store.keeps_readText.any fun text =>
      keeps_bind (Document.keeps_keysOf text).any fun keys => keeps_bind (k.minds_step _ _ _) fun _ =>
      keeps_onTerraformFailure ?_ ?_
    · exact keeps_bind k.keeps_checkDocument.any fun _ =>
        keeps_bind (k.minds_step _ _ _) fun _ => keeps_pure _
    · exact fun _ _ => keeps_bind (k.minds_step _ _ _) fun _ => keeps_pure _
  · exact keeps_bind (k.minds_step _ _ _) fun _ => keeps_pure _

theorem minds_credentialTrouble? (k : Keeper) : k.Minds k.credentialTrouble? :=
  Action.keeps_recover
    (keeps_bind k.client.keeps_callerIdentity.any fun _ =>
      keeps_bind (k.minds_step _ _ _) fun _ => keeps_pure _)
    fun _ _ => keeps_bind (k.minds_step _ _ _) fun _ => keeps_pure _

theorem minds_validate (k : Keeper) : k.Minds k.validate := by
  unfold validate
  refine keeps_bind Action.keeps_begin fun _ => keeps_bind k.minds_documentTrouble?
    fun document => keeps_bind k.minds_credentialTrouble? fun credentials => ?_
  split
  · exact Action.keeps_throw trivial
  · exact keeps_pure _

theorem minds_plan (k : Keeper) : k.Minds k.plan := by
  unfold plan
  exact keeps_bind Action.keeps_begin fun _ => keeps_bind k.keeps_ensureInitialized fun _ =>
    keeps_bind (k.terraform.keeps_run _).any fun _ => keeps_bind (Action.keeps_say _) fun _ => k.minds_step _ _ _

theorem minds_apply (k : Keeper) (assumeYes : Bool) : k.Minds (k.apply assumeYes) := by
  unfold apply
  have hrest : ∀ agreed : Bool, k.Minds (do
      if agreed then
        k.ensureInitialized
        Action.say (← k.terraform.run (.apply true))
        Action.step "apply" true "terraform apply completed"
      else Action.cancel "Cancelled.") := by
    intro agreed
    split
    · exact keeps_bind k.keeps_ensureInitialized fun _ => keeps_bind (k.terraform.keeps_run _).any fun _ =>
        keeps_bind (Action.keeps_say _) fun _ => k.minds_step _ _ _
    · exact Action.keeps_cancel _
  refine keeps_bind Action.keeps_begin fun _ => ?_
  split
  · exact keeps_bind (keeps_pure true) hrest
  · exact keeps_bind (Prompt.keeps_confirm _ _).any hrest

/-- The store is the one that the settings name. -/
theorem backupDirectory_eq (k : Keeper) : k.store.backupDirectory = k.settings.backupPath := by
  have h := k.agreed
  unfold Settings.store Store.of at h
  split at h
  · rw [← Except.ok.inj h]
  · cases h

theorem isName_snapshot (m : Moment) : Files.IsName ("backup_" ++ m.stamp) := by
  have hlen : 7 ≤ ("backup_" ++ m.stamp).length := by
    rw [String.length_append, show "backup_".length = 7 by decide]
    omega
  refine ⟨?_, ?_, ?_⟩
  · rw [String.toList_append, List.mem_append, not_or]
    exact ⟨by decide, m.slash_not_mem_stamp⟩
  · exact Store.ne_of_length_lt (by rw [show "".length = 0 by decide]; omega)
  · exact Store.ne_of_length_lt (by rw [show ".".length = 1 by decide]; omega)

/-- What is copied into a snapshot has names of files. -/
theorem isName_of_mem_snapshot (k : Keeper) {source : Files.Path}
    (h : source ∈ k.store.path :: stateFiles.map k.store.path.parent.child) :
    Files.IsName source.name := by
  have hchild : ∀ name, Files.IsName name → (k.store.path.parent.child name).name = name := by
    intro name hname
    rw [hname.child, Files.Path.name]
    simp
  have hstate : ∀ name ∈ stateFiles, Files.IsName name := by
    simp only [stateFiles, List.forall_mem_cons]
    exact ⟨⟨by decide, by decide, by decide⟩, ⟨by decide, by decide, by decide⟩,
      List.forall_mem_nil _⟩
  rcases List.mem_cons.1 h with rfl | hmem
  · exact ⟨k.store.named_ne.2.2, k.store.named_ne.1, k.store.named_ne.2.1⟩
  · obtain ⟨name, hname, rfl⟩ := List.mem_map.1 hmem
    rw [hchild name (hstate name hname)]
    exact hstate name hname

theorem minds_backupState (k : Keeper) : k.Minds k.backupState := by
  have hsnapshot : k.Minds (k.store.snapshot (some k.settings.backupPath)) := by
    intro s
    unfold Store.snapshot
    rw [meets_bind, Action.meets_look, ← k.backupDirectory_eq]
    have hdirectory : k.store.IsSnapshotDirectory
        (k.store.backupDirectory.child ("backup_" ++ s.moment.stamp)) := by
      refine ⟨"backup_" ++ s.moment.stamp, fun t => ?_⟩
      rw [(isName_snapshot s.moment).child]
      refine t.site_append _ _ fun hup => ?_
      have hlen := congrArg String.length hup
      rw [String.length_append, show "backup_".length = 7 by decide,
        show "..".length = 2 by decide] at hlen
      omega
    refine (?_ : k.Minds _) s
    refine keeps_bind (fun t => ?_) fun _ => keeps_bind
      (Store.spares_copyAll hdirectory fun _ => k.isName_of_mem_snapshot) fun _ => keeps_pure _
    exact (Store.keeps_makeDirectories _ t).imp (fun _ _ h => Store.spares_of_still h)
      fun _ _ h => ⟨Store.spares_of_still h.1, trivial⟩
  unfold backupState
  refine keeps_bind Action.keeps_begin fun _ => keeps_bind hsnapshot fun ⟨target, copies⟩ => ?_
  have hrest : k.Minds (do
      Action.displayAll (copies.map fun p => .message .success ("Backed up " ++ p.name))
      Action.step "backup" true (countText copies.length ++ " file(s) in " ++ target.text)) :=
    keeps_bind (Action.keeps_displayAll _) fun _ => k.minds_step _ _ _
  dsimp only
  split
  · exact keeps_bind (Action.keeps_warn _) fun _ => hrest
  · exact hrest

end Keeper

/-- An operation of a keeper, with what it is given. -/
inductive Errand where
  | edit (e : Edit)
  | list
  | validate
  | plan
  | apply (assumeYes : Bool)
  | backupState

/-- An operation, where nobody else is at work. -/
def Errand.run (k : Keeper) : Errand → Action Unit
  | edit e => e.run k
  | list => (fun _ => ()) <$> k.listInstances
  | validate => k.validate
  | plan => k.plan
  | apply assumeYes => k.apply assumeYes
  | backupState => k.backupState

/-- Every operation spares the backups, whatever it comes to. -/
theorem Errand.run_spares (k : Keeper) (j : Errand) :
    (j.run k).Keeps k.store.Spares fun _ => True := by
  cases j with
  | edit e =>
    exact fun s => (e.run_ends k s).imp
      (fun _ _ ⟨_, _, hentered, h⟩ => hentered.spares.trans h.spares)
      fun _ _ ⟨_, _, hentered, h⟩ => ⟨hentered.spares.trans h.spares, trivial⟩
  | list => exact Action.keeps_map k.minds_listInstances
  | validate => exact k.minds_validate
  | plan => exact k.minds_plan
  | apply assumeYes => exact k.minds_apply assumeYes
  | backupState => exact k.minds_backupState

/-! ## One operation after another -/

/-- Operations of a keeper, one after another. Each finds the files that the one before has left;
everything else may be new, the clock too. Others leave the backups alone while the operator is
asked. -/
inductive Keeper.Run (k : Keeper) : Session → Session → Prop
  | nothing (s : Session) : k.Run s s
  | next {s t u v : Session} {r : Except Fault Unit} (h : k.Run s t) (hfiles : u.files = t.files)
    (hdirectory : u.directory = t.directory)
    (hbackups : ∀ m n, u.Undisturbed (k.store.backupSite u m n)) (j : Errand)
    (hrun : (j.run k).outcome u = (r, v)) : k.Run s v

/-- A backup stays as it is through all operations. -/
theorem Keeper.Run.fileAt? {k : Keeper} (h : k.Run s t) :
    t.directory = s.directory ∧ ∀ m n content,
      s.files.fileAt? (k.store.backupSite s m n) = some content →
      t.files.fileAt? (k.store.backupSite s m n) = some content := by
  induction h with
  | nothing => exact ⟨rfl, fun _ _ _ => id⟩
  | @next t u v r _ hfiles hdirectory hbackups j hrun ih =>
    have hspares : k.store.Spares u v := by
      have hkeeps := (j.run_spares k).outcome u
      rwa [hrun] at hkeeps
    have hdir : u.directory = s.directory := hdirectory.trans ih.1
    refine ⟨hspares.directory.trans hdir, fun m n content hcontent => ?_⟩
    have hsite : k.store.backupSite u m n = k.store.backupSite s m n := by
      rw [Store.backupSite, Store.backupSite, Session.site, Session.site, Session.locate,
        Session.locate, hdir]
    have hstays := hspares.backups m n content (hbackups m n)
    rw [hsite, hfiles] at hstays
    exact hstays (ih.2 m n content hcontent)

/-! ## Replaced versions -/

/-- A document that is written anew was copied before. -/
theorem Store.Rewritten.exists_backup {touched : Set Files.Place} {w : Rewrite}
    {copy : Option Files.Path} {content : ByteArray × Nat} (h : st.Rewritten touched w copy s s')
    (htouched : touched ⊆ s.disturbed) (hquiet : s.Quiet) (hreaches : st.Reaches s)
    (hheld : st.held? s = some content) :
    ∃ n, copy = some (candidate (st.backupBase s.moment) n) ∧
      s.files.node? (st.backupSite s s.moment n) = none ∧
      s'.files.fileAt? (st.backupSite s s.moment n) = some content := by
  obtain ⟨t, u, hlooked, hbacks, hwrites⟩ := h
  have hnothing : touched ⊆ ∅ := hquiet.disturbed_eq ▸ htouched
  have hread : Did ∅ [.read w.text] s t := hlooked.did.mono hnothing
  have hheld' : st.held? t = some content := (held?_of_still hread).trans hheld
  cases copy with
  | none =>
    have hpresent := (hreaches.of_did hread).isPresent
    rw [hheld', hbacks.2] at hpresent
    cases hpresent
  | some copy =>
    have hkept : st.Kept copy t u := hbacks
    obtain ⟨n, hname⟩ := hkept.named
    rw [hread.moment] at hname
    have hsite : t.site copy = st.backupSite s s.moment n := by
      rw [hread.site, hname]
      rfl
    obtain ⟨content', hsource, hcopied⟩ := hkept.content
    obtain rfl : content' = content := Option.some.inj (hsource.symm.trans hheld')
    refine ⟨n, congrArg some hname, hread.node?_eq_none (Set.notMem_empty _) (hsite ▸ hkept.fresh), ?_⟩
    have hne : t.site copy ∉ ({u.site st.path} : Set Files.Place) := by
      rw [hkept.did.site]
      exact hkept.site_ne
    rw [← hsite, hwrites.did.files _ hne, hcopied]

namespace Edit
variable {k : Keeper} {e : Edit} {looks : List Deed}

/-- If a document was there and an edit put another text in its place, it first copied the document
under the name of a backup where nothing stood, and no later operation touches the copy. -/
def KeepsReplaced (k : Keeper) (s s' : Session) : Prop :=
  s.Quiet → ∀ own content, s'.deeds = own ++ s.deeds → k.store.held? s = some content →
    (∃ text, .wrote text ∈ own) → ∃ n text later earlier,
      own = later ++ .wrote text ::
        .kept (Store.candidate (k.store.backupBase s.moment) n) :: earlier ∧
      (∀ text, .wrote text ∉ earlier) ∧
      s.files.node? (k.store.backupSite s s.moment n) = none ∧
      ∀ t, k.Run s' t → t.files.fileAt? (k.store.backupSite s s.moment n) = some content

theorem Entered.own_eq {own more : List Deed} (h : Entered k looks s t)
    (hmore : s'.deeds = more ++ t.deeds) (hown : s'.deeds = own ++ s.deeds) :
    own = more ++ looks := by
  have hlooks : t.deeds = looks ++ s.deeds := h.did.deeds
  rw [hown, hlooks, ← List.append_assoc] at hmore
  exact List.append_cancel_right hmore

/-- What was done before the document was written wrote nothing. -/
theorem wrote_notMem {own : List Deed} (h : ∀ d ∈ own, d.IsRead ∨ ∃ copy, d = .kept copy)
    (text : String) : .wrote text ∉ own := by
  intro hmem
  obtain ⟨_, ⟨⟩⟩ | ⟨_, ⟨⟩⟩ := h _ hmem

theorem Entered.backs {w : Rewrite} {copy : Option Files.Path} {content : ByteArray × Nat}
    {touched : Set Files.Place} (h : Entered k looks s t) (hquiet : s.Quiet)
    (hlock : k.store.Reaches t) (hwritten : k.store.Rewritten touched w copy t u)
    (htouched : touched ⊆ t.disturbed) (hheld : k.store.held? s = some content) :
    ∃ n, copy = some (Store.candidate (k.store.backupBase s.moment) n) ∧
      s.files.node? (k.store.backupSite s s.moment n) = none ∧
      u.files.fileAt? (k.store.backupSite s s.moment n) = some content := by
  have hmoment : t.moment = s.moment := h.did.moment
  have hsite : ∀ n, k.store.backupSite t s.moment n = k.store.backupSite s s.moment n :=
    fun n => h.did.site _
  obtain ⟨n, hcopy, hfree, hcopied⟩ := hwritten.exists_backup htouched (h.did.quiet hquiet) hlock
    ((h.held? (hquiet _)).trans hheld)
  rw [hmoment] at hcopy hfree hcopied
  rw [hsite] at hfree hcopied
  refine ⟨n, hcopy, ?_, hcopied⟩
  refine (h.did.node?_eq_none ?_ hfree :)
  rw [hquiet.disturbed_eq, Set.empty_union]
  exact k.store.site_candidate_ne_lock s s.moment n

theorem Goes.keepsReplaced {r : Except Fault Unit} (hentered : Entered k looks s t)
    (h : e.Goes k s t r s') : KeepsReplaced k s s' := by
  intro hquiet own content hown hheld ⟨text, hwrote⟩
  have hlooks : ∀ read text, .wrote text ∉ .read read :: looks := fun read =>
    wrote_notMem fun d hd =>
      .inl ((List.mem_cons.1 hd).elim (fun h => ⟨read, h⟩) (hentered.isRead d))
  have hsite : ∀ n, k.store.backupSite s' s.moment n = k.store.backupSite s s.moment n :=
    fun n => (hentered.spares.trans h.spares).site _
  have hstays : ∀ n, s'.files.fileAt? (k.store.backupSite s s.moment n) = some content →
      ∀ t, k.Run s' t → t.files.fileAt? (k.store.backupSite s s.moment n) = some content := by
    intro n hcopied t ht
    have hrun := ht.fileAt?.2 s.moment n content
    rw [hsite] at hrun
    exact hrun hcopied
  cases h with
  | declined h =>
    obtain ⟨read, hdeeds, -⟩ := h.deeds
    have hdeeds : s'.deeds = [.read read] ++ t.deeds := hdeeds
    rw [hentered.own_eq hdeeds hown] at hwrote
    refine absurd hwrote (wrote_notMem (fun d hd => .inl ?_) text)
    exact (List.mem_cons.1 hd).elim (fun h => ⟨read, h⟩) (hentered.isRead d)
  | stopped h =>
    obtain ⟨more, hdeeds, hkinds, -⟩ := h.deeds
    rw [hentered.own_eq hdeeds hown] at hwrote
    refine absurd hwrote (wrote_notMem (fun d hd => ?_) text)
    exact (List.mem_append.1 hd).elim (hkinds d) fun hd => .inl (hentered.isRead d hd)
  | written c w copy u hasks hlock hadmits hfits hwritten hruns =>
    obtain ⟨runs, hdid, hordered⟩ := hruns
    obtain ⟨n, rfl, hfree, hcopied⟩ := hentered.backs hquiet hlock hwritten subset_rfl hheld
    obtain ⟨hdeeds, -⟩ := hentered.written hlock hfits hwritten hdid hordered
    refine ⟨n, w.result, runs, .read w.text :: looks, ?_, hlooks w.text, hfree, hstays n ?_⟩
    · exact List.append_cancel_right (hown.symm.trans hdeeds)
    · rw [hdid.files _ (Set.notMem_empty _), hcopied]
  | takenBack key forget w copy u v text he hlock hkey hfits hwritten hruns hcopy hback =>
    obtain ⟨runs, hdid, hordered⟩ := hruns
    have hmore := hwritten.mono (Set.empty_subset t.disturbed)
    obtain ⟨n, ⟨⟩, hfree, hcopied⟩ := hentered.backs hquiet hlock hmore subset_rfl hheld
    obtain ⟨hdeeds, -⟩ := hentered.written hlock hfits hmore hdid hordered
    refine ⟨n, w.result, .wrote text :: runs, .read w.text :: looks, ?_, hlooks w.text, hfree,
      hstays n ?_⟩
    · refine List.append_cancel_right (hown.symm.trans (hback.did.deeds.trans ?_))
      rw [hdeeds]
      rfl
    · have hne : k.store.backupSite s s.moment n ≠ v.site k.store.path := by
        rw [← hsite, Store.backupSite, hback.did.site]
        exact Store.backupSite_ne v hback.proper s.moment n
      rw [hback.did.files _ hne, hdid.files _ (Set.notMem_empty _), hcopied]

/-- What an edit replaces is kept: it was copied before under a name that was free, the search for
which ends, and no later operation touches the copy. -/
theorem replaced_versions_kept (k : Keeper) (e : Edit) (s : Session) :
    (e.run k).Meets s (fun _ => KeepsReplaced k s) (fun _ => KeepsReplaced k s) ∧
      ∃ n ≤ s.files.entries.length, (∀ m < n, k.store.isTaken s m = .ok true) ∧
        k.store.isTaken s n ≠ .ok true ∧
        ∀ p, Store.freeName (k.store.backupBase s.moment) s = .ok p →
          p = Store.candidate (k.store.backupBase s.moment) n := by
  refine ⟨(e.run_ends k s).imp (fun _ _ ⟨_, _, hentered, h⟩ => h.keepsReplaced hentered)
    fun _ _ ⟨_, _, hentered, h⟩ => h.keepsReplaced hentered, ?_⟩
  obtain ⟨n, hn, htaken, hfree⟩ := k.store.exists_first_free s
  refine ⟨n, hn, htaken, hfree, fun p hp => ?_⟩
  exact (Store.freeFrom_eq (Nat.zero_le n) (by omega) htaken hfree hp).1

end Edit
end InstanceInventory
