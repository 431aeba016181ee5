import InstanceInventory.Proofs.Store.Denials
import InstanceInventory.Proofs.Store.Places

/-! # What the store does to the document

* `Store.held?`, `Store.text?`: the bytes and the mode of the document, and its text.
* `Store.Reaches`: the path of the document leads somewhere.
* `Store.Guarded`, `Store.Guards`: the file of the lock stands in its place, and goes on to.
* `Store.acquire_meets`, `Store.readText_meets`, `Store.backup_meets`, `Store.write_meets`,
  `Store.restore_meets`: what the operations of the store come to.
-/

namespace InstanceInventory
set_option autoImplicit false
open InstanceInventory.Action (Frame Keeps Meets meets_bind meets_read meets_change meets_look
  meets_pure keeps_bind
  keeps_pure still_then)
open Session (Did Still did_files did_did)
variable {s s' s'' : Session} {st : Store} {changed : Set Files.Place} {ds : List Deed}
  {text : String}

namespace Store

/-- The store of a path that has a name. -/
theorem of_eq_ok (st : Store) : Store.of st.path st.backupDirectory = .ok st :=
  dif_pos st.named

/-! ## The document that is held -/

/-- The bytes and the mode of the document, where a file holds it. -/
def held? (st : Store) (s : Session) : Option (ByteArray × Nat) :=
  s.files.fileAt? (s.site st.path)

/-- The text of the document: empty where no file holds it, and none where it cannot be decoded. -/
def text? (st : Store) (s : Session) : Option String :=
  match st.held? s with
  | none => some ""
  | some content => (String.fromUTF8? content.1).map Text.unifyNewlines

/-- The path of the document leads somewhere. -/
def Reaches (st : Store) (s : Session) : Prop :=
  s.files.place (s.locate st.path) = .ok (s.site st.path)

theorem held?_of_did (h : Did changed ds s s') (hp : s.site st.path ∉ changed) :
    st.held? s' = st.held? s := by
  rw [held?, h.site, h.files _ hp]
  rfl

theorem held?_of_still (h : Did ∅ ds s s') : st.held? s' = st.held? s :=
  held?_of_did h (Set.notMem_empty _)

theorem text?_congr (h : st.held? s' = st.held? s) : st.text? s' = st.text? s := by
  rw [text?, h]
  rfl

theorem text?_of_did (h : Did changed ds s s') (hp : s.site st.path ∉ changed) :
    st.text? s' = st.text? s :=
  text?_congr (held?_of_did h hp)

theorem Reaches.of_did (h : st.Reaches s) (hd : Did ∅ ds s s') : st.Reaches s' := by
  rw [Reaches, hd.locate, hd.site]
  exact Files.Tree.place_mono (fun q => hd.directories q (Set.notMem_empty q)) h

/-- A document that can be reached is the one that is held. -/
theorem held?_of_file {content : ByteArray × Nat}
    (h : s.files.file (s.locate st.path) = .ok content) : st.held? s = some content :=
  (Files.Tree.file_eq_ok.1 h).2

theorem Reaches.file (h : st.Reaches s) {content : ByteArray × Nat}
    (hheld : st.held? s = some content) : s.files.file (s.locate st.path) = .ok content :=
  Files.Tree.file_eq_ok.2 ⟨h, hheld⟩

theorem exists_held?_of_isPresent (h : st.isPresent s = .ok true) :
    ∃ content, s.files.file (s.locate st.path) = .ok content ∧ st.held? s = some content := by
  obtain ⟨content, hcontent⟩ := Files.Tree.exists_file_of_isFile h
  exact ⟨content, hcontent, held?_of_file hcontent⟩

theorem isPresent_of_did (h : st.isPresent s = .ok true) (hd : Did ∅ ds s s') :
    st.isPresent s' = .ok true := by
  obtain ⟨content, hcontent, hheld⟩ := exists_held?_of_isPresent h
  have hreaches : st.Reaches s := (Files.Tree.file_eq_ok.1 hcontent).1
  exact Files.Tree.isFile_of_file ((hreaches.of_did hd).file ((held?_of_still hd).trans hheld))

theorem Reaches.isPresent (h : st.Reaches s) :
    st.isPresent s = .ok (st.held? s).isSome := by
  cases hheld : st.held? s with
  | some content => exact Files.Tree.isFile_of_file (h.file hheld)
  | none =>
    cases hpresent : st.isPresent s with
    | error e => exact absurd hpresent (Files.Tree.isFile_ne_error h e)
    | ok there =>
      cases there with
      | false => rfl
      | true =>
        obtain ⟨content, -, hcontent⟩ := exists_held?_of_isPresent hpresent
        rw [hheld] at hcontent
        cases hcontent

/-! ## Changing files -/

theorem keeps_makeDirectories (path : Session → Files.Path) :
    (Action.change fun s => s.files.makeDirectories (path s)).Keeps Still fun _ => True := fun s =>
  meets_change.2 ⟨fun _ h => did_files fun _ _ => Files.Tree.makeDirectories_ok h,
    fun _ _ => ⟨.refl ∅ s, trivial⟩⟩

/-- A directory is made that an edit needs. -/
theorem makeDirectory_meets (st : Store) (p : Files.Path)
    (hp : p = st.path.parent ∨ p = st.lockPath.parent ∨ p = st.backupDirectory) (s : Session) :
    (Action.change fun s => s.files.makeDirectories (s.locate p)).Meets s
      (fun _ s' => Still s s' ∧ s'.files.hasDirectory (s'.site p) = true)
      fun f s' => Still s s' ∧ st.Denies s' f :=
  meets_change.2 ⟨fun _ h => ⟨did_files fun _ _ => Files.Tree.makeDirectories_ok h,
    Files.Tree.hasDirectory_of_makeDirectories h⟩, fun _ h => ⟨.refl ∅ s, .unmade hp h⟩⟩

/-! ## The lock -/

/-- The file of the lock stands in its place, as it is found from a directory. -/
def Guarded (st : Store) (directory : Files.Path) (t : Files.Tree) : Prop :=
  ∃ content, t.file (directory.join st.lockPath) = .ok content

/-- The file of the lock goes on to stand in its place. -/
abbrev Guards (st : Store) : Session → Session → Prop :=
  Session.Retains st.Guarded

/-- Where no directory is lost and nothing is done at the place of the lock its file stays. -/
theorem guards_of_did (h : Did changed ds s s')
    (hdirectories : ∀ q, s.files.hasDirectory q = true → s'.files.hasDirectory q = true)
    (hp : ∀ content, s.files.fileAt? (s.site st.lockPath) = some content →
      s.site st.lockPath ∉ changed) : st.Guards s s' where
  directory := h.directory
  answers := h.answers
  files := by
    rintro - ⟨content, hcontent⟩
    obtain ⟨hplace, hfile⟩ := Files.Tree.file_eq_ok.1 hcontent
    exact ⟨content, Files.Tree.file_eq_ok.2 ⟨Files.Tree.place_mono hdirectories hplace,
      (h.files _ (hp content hfile)).trans hfile⟩⟩

theorem guards_of_still (h : Did ∅ ds s s') : st.Guards s s' :=
  guards_of_did h (fun q => h.directories q (Set.notMem_empty q)) fun _ _ => Set.notMem_empty _

/-- The lock is open: a file stands in its place. -/
def Opened (st : Store) (s s' : Session) : Prop :=
  Did {s.site st.lockPath} [] s s' ∧ st.Guarded s'.directory s'.files

/-- The lock is held, its file stands in its place, and the document can be reached. -/
structure Locked (st : Store) (s s' : Session) : Prop where
  did : Did {s.site st.lockPath} [] s s'
  guarded : st.Guarded s'.directory s'.files
  reaches : st.Reaches s'
  holds : s'.holdsLock = true

theorem openLock_meets (st : Store) (s : Session) :
    st.openLock.Meets s (fun _ => st.Opened s)
      fun f s' => Did {s.site st.lockPath} [] s s' ∧ st.Denies s' f := by
  unfold openLock
  refine (st.makeDirectory_meets _ (.inr (.inl rfl)) s).imp_bad
    (fun f _ h => ⟨h.1.mono (Set.empty_subset _), h.2⟩) |>.bind fun _ s₁ ⟨h₁, hdir⟩ => ?_
  have hsub : ∀ {t}, Did {s₁.site st.lockPath} [] s₁ t → Did {s.site st.lockPath} [] s t :=
    fun h => h₁.then_did (h₁.site _ ▸ h)
  rw [meets_change]
  refine ⟨fun files hfiles => ?_, fun e he => ⟨hsub (.refl _ s₁), ?_⟩⟩
  · split at hfiles
    · next bytes mode hat =>
      obtain rfl := Except.ok.inj hfiles
      exact ⟨hsub (.refl _ s₁), Files.Tree.exists_file_of_at? hat⟩
    · obtain ⟨hfile, hothers⟩ := Files.Tree.writeBytes_ok hfiles
      exact ⟨hsub (did_files fun p hp => hothers p hp), _, hfile⟩
  · split at he
    · cases he
    · exact .unlocked hdir he

/-- Who has opened the lock is refused it only where another process holds it. -/
theorem takeLock_meets (st : Store) (s : Session) :
    st.takeLock.Meets s (fun _ => st.Locked s)
      fun f s' => s' = s ∧ (st.Guarded s.directory s.files →
        s.isLockedElsewhere = true ∧ ∃ wording, f = .plain .lockTimeout wording) := by
  unfold takeLock
  rw [meets_bind, Action.meets_get]
  have hhold : Meets (do
      Action.change fun s =>
        s.files.writeBytes (s.locate st.lockPath) (s.processId ++ "\n").toUTF8
      modify fun s => { s with holdsLock := true }) s (fun _ => st.Locked s)
      fun f s' => s' = s ∧ (st.Guarded s.directory s.files →
        s.isLockedElsewhere = true ∧ ∃ wording, f = .plain .lockTimeout wording) := by
    rw [meets_bind, meets_change]
    refine ⟨fun files hfiles => (Action.meets_modify _).2 ?_, fun e he =>
      ⟨rfl, fun ⟨_, hopened⟩ => absurd he (Files.Tree.writeBytes_ne_error hopened e)⟩⟩
    obtain ⟨hfile, hothers⟩ := Files.Tree.writeBytes_ok hfiles
    refine ⟨?_, ⟨_, hfile⟩, ?_, rfl⟩
    · have hdid : Did {s.site st.lockPath} [] s { s with files } :=
        did_files fun p hp => hothers p hp
      exact { hdid with deeds := rfl }
    · have hlock := (Files.Tree.file_eq_ok.1 hfile).1
      obtain ⟨slashes, init, hjoin, hself⟩ := Files.exists_split s.directory st.parts_ne_nil
      show files.place (s.directory.join st.path) = .ok (s.directory.join st.path).target
      rw [hself]
      rw [Session.locate, lockPath, hjoin] at hlock
      refine Files.Tree.place_concat hlock (fun h => ?_) ?_
      · rw [String.toList_append, String.toList_append]
        exact List.mem_append_left _ (List.mem_append_right _ h)
      · rw [String.utf8ByteSize_append, String.utf8ByteSize_append]
        omega
  dsimp only
  split
  · next hlocked =>
    exact meets_bind.2 ((Action.meets_fail _ _).2 ⟨rfl, fun _ => ⟨hlocked, _, rfl⟩⟩)
  · exact hhold

theorem acquire_meets (st : Store) (s : Session) :
    st.acquire.Meets s (fun _ => st.Locked s)
      fun f s' => Did {s.site st.lockPath} [] s s' ∧ st.Bars s' f := by
  refine (st.openLock_meets s).imp_bad (fun f _ h => ⟨h.1, .inl h.2⟩) |>.bind
    fun _ s₁ h₁ => (st.takeLock_meets s₁).imp
      (fun _ s₂ h₂ => ⟨?_, h₂.guarded, h₂.reaches, h₂.holds⟩)
      fun f s₂ h₂ => ⟨h₂.1 ▸ h₁.1, .inr (h₂.1 ▸ h₂.2 h₁.2)⟩
  have hdid := h₂.did
  rw [h₁.1.site] at hdid
  exact h₁.1.trans_same hdid

/-- Opening a lock whose file stands in its place changes nothing. -/
theorem openLock_guarded (h : st.Guarded s.directory s.files) :
    st.openLock.Meets s (fun _ s' => s' = s) fun _ _ => False := by
  obtain ⟨content, hcontent⟩ := h
  obtain ⟨hplace, hfile⟩ := Files.Tree.file_eq_ok.1 hcontent
  have hmake : s.files.makeDirectories (s.locate st.lockPath.parent) = .ok s.files := by
    obtain ⟨slashes, init, hjoin, -⟩ := Files.exists_split s.directory st.parts_ne_nil
    have hlock := hjoin ("." ++ st.path.name ++ ".lock")
    have hnamed : st.lockPath.parts ≠ [] := List.concat_ne_nil _ _
    rw [lockPath, hlock] at hplace
    rw [Session.locate, Files.join_parent hnamed hlock]
    exact Files.Tree.makeDirectories_standing hplace
  obtain ⟨bytes, mode, hat⟩ : ∃ bytes mode,
      s.files.at? (s.locate st.lockPath) = some (.file bytes mode) :=
    Files.Tree.exists_at?_of_file hcontent
  unfold openLock
  rw [meets_bind, meets_change]
  refine ⟨fun files hfiles => ?_, fun e he => absurd (hmake.symm.trans he) (by simp)⟩
  obtain rfl : s.files = files := Except.ok.inj (hmake.symm.trans hfiles)
  rw [meets_change]
  simp only [hat]
  refine ⟨fun files hfiles => ?_, fun e he => absurd he (by simp)⟩
  obtain rfl := Except.ok.inj hfiles
  rfl

/-- Who is refused the lock leaves everything as it is. -/
theorem takeLock_refused (h : s.isLockedElsewhere = true) :
    st.takeLock.Meets s (fun _ _ => False)
      fun f s' => s' = s ∧ ∃ wording, f = .report (.plain .lockTimeout wording) := by
  unfold takeLock
  rw [meets_bind, Action.meets_get]
  simp only [h, if_true]
  exact meets_bind.2 ((Action.meets_fail _ _).2 ⟨rfl, _, rfl⟩)

theorem Locked.held? (h : st.Locked s s') : st.held? s' = st.held? s :=
  held?_of_did h.did (st.site_ne_lock s)

/-- A session that gives the lock back. -/
theorem still_released (s : Session) : Still s { s with holdsLock := false } :=
  { Did.refl ∅ s with deeds := rfl }

/-! ## Reading and writing -/

/-- A text is that of the document as it is found. -/
def Shows (st : Store) (s : Session) (text : String) : Prop :=
  st.isPresent s = .ok false ∧ text = "" ∨ s.files.readText (s.locate st.path) = .ok text

theorem Reaches.text?_of_shows (h : st.Reaches s) (ht : st.Shows s text) :
    st.text? s = some text := by
  unfold text?
  rcases ht with ⟨habsent, rfl⟩ | hread
  · have hpresent := h.isPresent.symm.trans habsent
    cases hheld : st.held? s with
    | none => rfl
    | some content =>
      rw [hheld] at hpresent
      cases hpresent
  · obtain ⟨content, hfile, raw, hraw, rfl⟩ := Files.Tree.readText_eq_ok.1 hread
    rw [held?_of_file hfile]
    simp only [hraw, Option.map_some]

theorem keeps_readText {rel : Session → Session → Prop} [Frame.Deeds rel] (st : Store) :
    st.readText.Keeps rel Fault.IsAccess := by
  unfold readText currentText
  refine keeps_bind (keeps_bind (Action.keeps_read _) fun present => ?_) fun text =>
    keeps_bind (Action.keeps_did _) fun _ => keeps_pure _
  split
  · exact keeps_pure _
  · refine keeps_bind Action.keeps_get fun s => ?_
    split
    · exact keeps_pure _
    · exact Action.keeps_throw trivial

theorem readText_meets (st : Store) (s : Session) :
    st.readText.Meets s
      (fun text s' => Did ∅ [.read text] s s' ∧ s'.files = s.files ∧ st.Shows s text)
      fun f s' => s' = s ∧ st.Denies s f := by
  have hcurrent : st.currentText.Meets s (fun text s' => s' = s ∧ st.Shows s text)
      fun f s' => s' = s ∧ st.Denies s f := by
    unfold currentText
    rw [meets_bind, meets_read]
    refine ⟨fun present hpresent => ?_, fun e he => ⟨rfl, .unseen he⟩⟩
    cases present with
    | false => exact (meets_pure _).2 ⟨rfl, .inl ⟨hpresent, rfl⟩⟩
    | true =>
      simp only [Bool.not_true, Bool.false_eq_true, if_false]
      rw [meets_bind, Action.meets_get]
      cases h : s.files.readText (s.locate st.path) with
      | ok text => exact (meets_pure _).2 ⟨rfl, .inr h⟩
      | error e => exact (Action.meets_fail _ _).2 ⟨rfl, .unread hpresent h⟩
  refine hcurrent.bind fun text s₁ h₁ => ?_
  obtain ⟨rfl, hshows⟩ := h₁
  rw [meets_bind, Action.did, Action.meets_modify]
  exact (meets_pure _).2 ⟨did_did s₁ _, rfl, hshows⟩

/-- A document that can be reached and decoded is read. -/
theorem Reaches.readText_meets (h : st.Reaches s) (htext : st.text? s = some text) :
    st.readText.Meets s (fun read s' => read = text ∧ Did ∅ [.read text] s s') fun _ _ => False := by
  have hcurrent : st.currentText.Meets s (fun _ _ => True) fun _ _ => False := by
    unfold currentText
    rw [meets_bind, meets_read]
    refine ⟨fun present hpresent => ?_, fun e he => absurd (h.isPresent.symm.trans he) (by simp)⟩
    cases present with
    | false => exact (meets_pure _).2 trivial
    | true =>
      simp only [Bool.not_true, Bool.false_eq_true, if_false]
      rw [meets_bind, Action.meets_get]
      obtain ⟨content, hfile, hheld⟩ := exists_held?_of_isPresent hpresent
      rw [text?, hheld] at htext
      obtain ⟨raw, hraw, -⟩ := Option.map_eq_some_iff.1 htext
      rw [Files.Tree.readText_eq_ok.2 ⟨content, hfile, raw, hraw, rfl⟩]
      exact (meets_pure _).2 trivial
  have hread : st.readText.Meets s (fun _ _ => True) fun _ _ => False :=
    hcurrent.bind fun _ _ _ => meets_bind.2 ((Action.meets_modify _).2 ((meets_pure _).2 trivial))
  refine ((st.readText_meets s).and hread).imp (fun read s' ⟨⟨hdid, _, hshows⟩, _⟩ => ?_)
    fun _ _ h => h.2
  obtain rfl : read = text := Option.some.inj ((h.text?_of_shows hshows).symm.trans htext)
  exact ⟨rfl, hdid⟩

/-- A text stands in place of the document, with the mode that the document had, and nothing else
has changed. -/
structure Writes (st : Store) (text : String) (s s' : Session) : Prop where
  proper : st.path.name ≠ ".."
  did : Did {s.site st.path} [.wrote text] s s'
  directories : ∀ q, s.files.hasDirectory q = true → s'.files.hasDirectory q = true
  document : st.held? s' =
    some (text.toUTF8, ((st.held? s).map Prod.snd).getD Files.Tree.defaultMode)

theorem write_meets (st : Store) (text : String) (s : Session) :
    (st.write text).Meets s (fun _ => st.Writes text s)
      fun f s' => Still s s' ∧ st.Denies s' f := by
  unfold write
  refine (st.makeDirectory_meets _ (.inl rfl) s).bind fun _ s₁ ⟨h₁, hdir⟩ => ?_
  rw [meets_bind, meets_read]
  refine ⟨fun place _ => ?_, fun e he => ⟨h₁, .unstaged hdir he⟩⟩
  rw [meets_bind, Action.meets_get]
  cases hwrite : replace s₁.files (s₁.locate st.path) text with
  | error e => exact (Action.meets_fail _ _).2 ⟨h₁, .unwritten hdir hwrite⟩
  | ok files =>
    obtain ⟨hfile, hothers⟩ := Files.Tree.writeBytes_ok hwrite
    rw [meets_bind, Action.meets_set, Action.did, Action.meets_modify]
    have hdid : Did {s.site st.path} [.wrote text] s₁
        { s₁ with files, deeds := .wrote text :: s₁.deeds } :=
      by
      rw [← h₁.site]
      exact (did_files hothers).then_deed _
    refine ⟨fun hup => ?_, h₁.then_did hdid, fun q hq => ?_, ?_⟩
    · obtain ⟨hplace, hheld⟩ := Files.Tree.file_eq_ok.1 hfile
      obtain ⟨slashes, init, -, hself⟩ := Files.exists_split s₁.directory st.parts_ne_nil
      rw [Session.locate, hself, hup] at hplace hheld
      obtain ⟨mode, hnode⟩ := Files.Tree.hasDirectory_iff.1
        (Files.Tree.hasDirectory_of_place_up hplace)
      simp [Files.Tree.fileAt?, hnode] at hheld
    · exact (hothers _ (st.site_ne_lock s₁).symm).directory q (h₁.directories q (Set.notMem_empty q) hq)
    · have hheld : st.held? s₁ = st.held? s := held?_of_still h₁
      rw [← hheld]
      exact (Files.Tree.file_eq_ok.1 hfile).2

theorem Writes.after_still (h : st.Writes text s' s'') (hs : Still s s') : st.Writes text s s'' :=
  ⟨h.proper, hs.then_did (hs.site st.path ▸ h.did),
    fun q hq => h.directories q (hs.directories q (Set.notMem_empty q) hq),
    held?_of_still hs ▸ h.document⟩

theorem Writes.then_still (h : st.Writes text s s') (hs : Still s' s'') : st.Writes text s s'' :=
  ⟨h.proper, h.did.then_still hs,
    fun q hq => hs.directories q (Set.notMem_empty q) (h.directories q hq),
    (held?_of_still hs).trans h.document⟩

theorem Writes.guards (h : st.Writes text s s') : st.Guards s s' :=
  guards_of_did h.did h.directories fun _ _ hmem => st.site_ne_lock s (Set.mem_singleton_iff.1 hmem).symm

theorem restore_meets (st : Store) (copy : Files.Path) (s : Session) :
    (st.restore copy).Meets s
      (fun _ s' => ∃ text, s.files.readText (s.locate copy) = .ok text ∧ st.Writes text s s')
      fun f s' => Still s s' ∧
        (st.Denies s' f ∨ ∃ e, s'.files.readText (s'.locate copy) = .error e ∧ f = .file e) := by
  unfold restore
  rw [meets_bind, meets_read]
  refine ⟨fun text h => ?_, fun e he => ⟨.refl _ s, .inr ⟨e, he, rfl⟩⟩⟩
  exact (st.write_meets text s).imp (fun _ _ hw => ⟨text, h, hw⟩) fun _ _ hf => ⟨hf.1, .inl hf.2⟩

/-! ## Backups -/

/-- A copy of the document was put under a name of its own, where nothing stood. -/
structure Kept (st : Store) (copy : Files.Path) (s s' : Session) : Prop where
  did : Did {s.site copy} [.kept copy] s s'
  named : ∃ n, copy = candidate (st.backupBase s.moment) n
  directories : ∀ q, s.files.hasDirectory q = true → s'.files.hasDirectory q = true
  fresh : s.files.node? (s.site copy) = none
  content : ∃ content, st.held? s = some content ∧ s'.files.fileAt? (s.site copy) = some content
  reached : s'.files.place (s'.locate copy) = .ok (s'.site copy)

/-- The document was copied if it was there. -/
def Backs (st : Store) : Option Files.Path → Session → Session → Prop
  | none, s, s' => Still s s' ∧ st.isPresent s = .ok false
  | some copy, s, s' => st.Kept copy s s'

variable {copy : Files.Path}

theorem Kept.site_ne (h : st.Kept copy s s') : s.site copy ≠ s.site st.path := by
  obtain ⟨content, hheld, -⟩ := h.content
  intro heq
  have hnone := h.fresh
  rw [heq] at hnone
  simp [held?, Files.Tree.fileAt?, hnone] at hheld

theorem Kept.held? (h : st.Kept copy s s') : st.held? s' = st.held? s :=
  held?_of_did h.did h.site_ne.symm

/-- A copy takes the place of nothing, so the file of the lock stays. -/
theorem Backs.guards {copy : Option Files.Path} (h : st.Backs copy s s') : st.Guards s s' := by
  cases copy with
  | none => exact guards_of_still h.1
  | some copy =>
    have hkept : st.Kept copy s s' := h
    refine guards_of_did hkept.did hkept.directories fun content hcontent hmem => ?_
    have hfresh := hkept.fresh
    rw [← Set.mem_singleton_iff.1 hmem] at hfresh
    simp [Files.Tree.fileAt?, hfresh] at hcontent

theorem backup_meets (st : Store) (s : Session) :
    st.backup.Meets s (fun copy => st.Backs copy s) fun f s' => Still s s' ∧ st.Denies s' f := by
  unfold backup
  rw [meets_bind, meets_read]
  refine ⟨fun present hpresent => ?_, fun e he => ⟨.refl _ s, .unseen he⟩⟩
  cases present with
  | false => exact (meets_pure _).2 ⟨.refl _ s, hpresent⟩
  | true =>
    obtain ⟨content, hfile, hheld⟩ := exists_held?_of_isPresent hpresent
    simp only [Bool.not_true, Bool.false_eq_true, if_false]
    refine (st.makeDirectory_meets _ (.inr (.inr rfl)) s).bind fun _ s₁ ⟨h₁, hdir⟩ => ?_
    rw [meets_bind, meets_look, meets_bind, meets_read]
    refine ⟨fun copy hcopy => ?_, fun e he => ⟨h₁, .unnamed he⟩⟩
    obtain ⟨n, -, hname, -, hfree⟩ := freeName_ok hcopy
    rw [meets_bind, meets_change]
    refine ⟨fun files hfiles => ?_, fun e he =>
      ⟨h₁, .of_copyFile (isPresent_of_did hpresent h₁) hdir hcopy he⟩⟩
    cases hcopied : s₁.files.copyFile (s₁.locate st.path) (s₁.locate copy) with
    | error e =>
      rw [hcopied] at hfiles
      cases hfiles
    | ok result =>
      rw [hcopied] at hfiles
      obtain rfl := Except.ok.inj hfiles
      obtain ⟨-, hnone, ⟨content', hsource, hcontent⟩, hothers⟩ :=
        Files.Tree.copyFile_free hcopied hfree
      have hheld' : st.held? s₁ = some content' := held?_of_file hsource
      rw [held?_of_still h₁] at hheld'
      have hdid : Did {s₁.site copy} [.kept copy] s₁
          { s₁ with files := result.1, deeds := .kept copy :: s₁.deeds } :=
        (did_files hothers).then_deed _
      rw [meets_bind, Action.did, Action.meets_modify]
      refine still_then (Action.keeps_note _) fun _ s₂ h₂ =>
        (meets_pure _).2 ⟨?_, ⟨n, ?_⟩, fun q hq => ?_, ?_, ⟨content', hheld', ?_⟩, ?_⟩
      · rw [← h₁.site]
        exact h₁.then_did (hdid.then_still h₂)
      · rw [hname, h₁.moment]
      · have hne : s₁.site st.lockPath ≠ s₁.site copy := by
          rw [hname]
          exact (st.site_candidate_ne_lock s₁ s₁.moment n).symm
        exact h₂.directories q (Set.notMem_empty q)
          ((hothers _ hne).directory q (h₁.directories q (Set.notMem_empty q) hq))
      · rw [← h₁.site]
        exact h₁.node?_eq_none (Set.notMem_empty _) hnone
      · rw [← h₁.site, h₂.files _ (Set.notMem_empty _)]
        exact (Files.Tree.file_eq_ok.1 hcontent).2
      · rw [h₂.locate, h₂.site]
        exact Files.Tree.place_mono (fun q => h₂.directories q (Set.notMem_empty q))
          (Files.Tree.file_eq_ok.1 hcontent).1

end Store
end InstanceInventory
