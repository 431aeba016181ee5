import InstanceInventory.Proofs.Action.Keeps
import InstanceInventory.Proofs.Files.Tree
import Mathlib.Data.Set.Insert

/-! # What happens from one session to another

* `Session.Undisturbed`: others leave what stands at a place alone while the operator is asked.
* `Session.Did`: certain deeds were done, the files at certain places may have changed, and nothing
  else has that an edit depends on.
* `Session.Still`, `Session.Calm`, `Session.Ran`: nothing was done at all, the operator was asked at
  most, and Terraform was run at most. These are frames.
* `Session.Retains`: what is known of the files goes on to be known while others do nothing. This is a
  frame, too.
-/

namespace InstanceInventory.Session
set_option autoImplicit false
open InstanceInventory.Action (Frame)
variable {s s' s'' : Session} {p : Files.Place} {changed more : Set Files.Place}
  {ds es : List Deed}

/-- The place to which a path leads in the directory of a session. -/
def site (s : Session) (path : Files.Path) : Files.Place :=
  (s.locate path).target

/-! ## Others at work -/

/-- What others do while the operator is asked leaves what stands at a place. -/
def Undisturbed (p : Files.Place) (s : Session) : Prop :=
  ∀ a ∈ s.answers, ∀ t : Files.Tree, (a.meanwhile t).node? p = t.node? p

/-- The places that others may touch while the operator is asked. -/
def disturbed (s : Session) : Set Files.Place :=
  {p | ¬ s.Undisturbed p}

/-- Others leave everything in place while the operator is asked. -/
def Quiet (s : Session) : Prop :=
  ∀ p, s.Undisturbed p

theorem notMem_disturbed : p ∉ s.disturbed ↔ s.Undisturbed p := not_not

theorem Quiet.disturbed_eq (h : s.Quiet) : s.disturbed = ∅ :=
  Set.eq_empty_of_forall_notMem fun p => notMem_disturbed.2 (h p)

/-- Others do nothing while the operator is asked. -/
def Idle (s : Session) : Prop :=
  ∀ a ∈ s.answers, a.meanwhile = id

theorem Idle.quiet (h : s.Idle) : s.Quiet := by
  intro p a ha t
  rw [h a ha]
  rfl

theorem Idle.of_subset (h : s.Idle) (hsub : s'.answers ⊆ s.answers) : s'.Idle :=
  fun a ha => h a (hsub ha)

/-! ## What was done -/

/-- From one session to another certain deeds were done, the last one first. The files and
directories at certain places may have changed; elsewhere every file is as it was and no directory
is lost. -/
structure Did (changed : Set Files.Place) (ds : List Deed) (s s' : Session) : Prop where
  directory : s'.directory = s.directory
  moment : s'.moment = s.moment
  cancelled : s'.progress.cancelled = s.progress.cancelled
  answers : s'.answers ⊆ s.answers
  deeds : s'.deeds = ds ++ s.deeds
  files : ∀ p ∉ changed, s'.files.fileAt? p = s.files.fileAt? p
  directories : ∀ p ∉ changed, s.files.hasDirectory p = true → s'.files.hasDirectory p = true

theorem Did.refl (changed : Set Files.Place) (s : Session) : Did changed [] s s :=
  ⟨rfl, rfl, rfl, fun _ => id, rfl, fun _ _ => rfl, fun _ _ => id⟩

theorem Did.trans (h : Did changed ds s s') (h' : Did more es s' s'') :
    Did (changed ∪ more) (es ++ ds) s s'' where
  directory := h'.directory.trans h.directory
  moment := h'.moment.trans h.moment
  cancelled := h'.cancelled.trans h.cancelled
  answers := fun _ ha => h.answers (h'.answers ha)
  deeds := by rw [h'.deeds, h.deeds, List.append_assoc]
  files p hp := by
    rw [Set.mem_union, not_or] at hp
    exact (h'.files p hp.2).trans (h.files p hp.1)
  directories p hp hdir := by
    rw [Set.mem_union, not_or] at hp
    exact h'.directories p hp.2 (h.directories p hp.1 hdir)

theorem Did.mono (h : Did changed ds s s') (hsub : changed ⊆ more) : Did more ds s s' :=
  { h with
    files := fun p hp => h.files p fun hmem => hp (hsub hmem)
    directories := fun p hp => h.directories p fun hmem => hp (hsub hmem) }

theorem Did.locate (h : Did changed ds s s') (path : Files.Path) :
    s'.locate path = s.locate path := by
  unfold Session.locate
  rw [h.directory]

theorem Did.site (h : Did changed ds s s') (path : Files.Path) : s'.site path = s.site path :=
  congrArg Files.Path.target (h.locate path)

theorem Did.undisturbed (h : Did changed ds s s') (hs : s.Undisturbed p) : s'.Undisturbed p :=
  fun a ha => hs a (h.answers ha)

theorem Did.disturbed_subset (h : Did changed ds s s') : s'.disturbed ⊆ s.disturbed :=
  fun _ hp hs => hp (h.undisturbed hs)

theorem Did.quiet (h : Did changed ds s s') (hs : s.Quiet) : s'.Quiet :=
  fun p => h.undisturbed (hs p)

/-- Where nothing stands after it nothing stood before. -/
theorem Did.node?_eq_none (h : Did changed ds s s') (hp : p ∉ changed)
    (hnone : s'.files.node? p = none) : s.files.node? p = none := by
  obtain ⟨hfile, hdir⟩ := Files.Tree.node?_eq_none_iff.1 hnone
  refine Files.Tree.node?_eq_none_iff.2 ⟨(h.files p hp).symm.trans hfile, ?_⟩
  by_contra hthere
  rw [h.directories p hp (eq_true_of_ne_false hthere)] at hdir
  cases hdir

/-- Two steps after which the same places may have changed. -/
theorem Did.trans_same (h : Did changed ds s s') (h' : Did changed es s' s'') :
    Did changed (es ++ ds) s s'' :=
  (h.trans h').mono (Set.union_self changed).subset

/-- Files of which certain places alone have changed, put into a session. -/
theorem did_files {files : Files.Tree} (h : ∀ p ∉ changed, s.files.Leaves p files) :
    Did changed [] s { s with files } :=
  { Did.refl changed s with
    files := fun p hp => (h p hp).file
    directories := fun p hp => (h p hp).directory p }

/-- A note on what was done. -/
theorem did_did (s : Session) (d : Deed) : Did ∅ [d] s { s with deeds := d :: s.deeds } :=
  { Did.refl ∅ s with deeds := rfl }

theorem Did.then_deed (h : Did changed ds s s') (d : Deed) :
    Did changed (d :: ds) s { s' with deeds := d :: s'.deeds } :=
  { h with deeds := congrArg (d :: ·) h.deeds }

def givenUp (s : Session) : Session :=
  { s with progress := { s.progress with cancelled := true } }

/-! ## Frames -/

/-- Nothing was done. -/
abbrev Still : Session → Session → Prop :=
  Did ∅ []

/-- Nothing was done, but the operator may have been asked and others may have been at work. -/
def Calm (s s' : Session) : Prop :=
  Did s.disturbed [] s s'

/-- Nothing was done but by Terraform, and no file has changed. -/
def Ran (s s' : Session) : Prop :=
  ∃ ds, Did ∅ ds s s'

theorem Did.then_still (h : Did changed ds s s') (h' : Still s' s'') : Did changed ds s s'' :=
  (h.trans h').mono (Set.union_empty changed).subset

theorem Did.then_calm (h : Did changed ds s s') (h' : Calm s' s'') :
    Did (changed ∪ s.disturbed) ds s s'' :=
  (h.trans h').mono (Set.union_subset_union_right changed h.disturbed_subset)

theorem Did.then_did (h : Still s s') (h' : Did changed ds s' s'') : Did changed ds s s'' := by
  have h := h.trans h'
  rwa [Set.empty_union, List.append_nil] at h

theorem Did.calm (h : Still s s') : Calm s s' :=
  h.mono (Set.empty_subset _)

instance : Frame.Requests Still where
  refl := .refl ∅
  trans := Did.then_still
  shown s _ := { Did.refl ∅ s with deeds := rfl }
  steps s _ := { Did.refl ∅ s with deeds := rfl }
  request s _ _ := { Did.refl ∅ s with deeds := rfl }
  waited s _ := { Did.refl ∅ s with deeds := rfl }

instance : Frame.Requests Calm where
  refl s := .refl s.disturbed s
  trans h h' := (Did.then_calm h h').mono (Set.union_self _).subset
  shown _ _ := Did.calm (Frame.shown _ _)
  steps _ _ := Did.calm (Frame.steps _ _)
  request _ _ _ := Did.calm (Frame.Requests.request _ _ _)
  waited _ _ := Did.calm (Frame.Requests.waited _ _)

instance : Frame.Answers Calm where
  answer s a as h := by
    have hmem : ∀ b ∈ a :: as, b ∈ s.answers := fun b hb => h ▸ hb
    have hnode : ∀ p ∉ s.disturbed, (a.meanwhile s.files).node? p = s.files.node? p :=
      fun p hp => notMem_disturbed.1 hp a (hmem a (List.mem_cons_self ..)) s.files
    exact { Did.refl s.disturbed s with
      answers := fun b hb => hmem b (List.mem_cons_of_mem a hb)
      deeds := rfl
      files := fun p hp => by simp only [Files.Tree.fileAt?, hnode p hp]
      directories := fun p hp hdir => by simpa only [Files.Tree.hasDirectory, hnode p hp] using hdir }

instance : Frame.Runs Ran where
  refl s := ⟨[], .refl ∅ s⟩
  trans := fun ⟨_, h⟩ ⟨_, h'⟩ => ⟨_, h.trans_same h'⟩
  shown _ _ := ⟨[], Frame.shown _ _⟩
  steps _ _ := ⟨[], Frame.steps _ _⟩
  did s d := ⟨[d], did_did s d⟩
  run s _ _ _ := ⟨[], { Did.refl ∅ s with deeds := rfl }⟩

/-! ## What is retained -/

/-- What is known of the files, as they are found from the directory of a session, goes on to be known
while others do nothing. -/
structure Retains (P : Files.Path → Files.Tree → Prop) (s s' : Session) : Prop where
  directory : s'.directory = s.directory
  answers : s'.answers ⊆ s.answers
  files : s.Idle → P s.directory s.files → P s.directory s'.files

section
variable {P : Files.Path → Files.Tree → Prop}

theorem Retains.refl (s : Session) : Retains P s s :=
  ⟨rfl, fun _ => id, fun _ => id⟩

theorem Retains.trans (h : Retains P s s') (h' : Retains P s' s'') : Retains P s s'' where
  directory := h'.directory.trans h.directory
  answers := fun _ ha => h.answers (h'.answers ha)
  files hidle hP := by
    have hafter := h'.files (hidle.of_subset h.answers)
    rw [h.directory] at hafter
    exact hafter (h.files hidle hP)

theorem Retains.idle (h : Retains P s s') (hs : s.Idle) : s'.Idle :=
  hs.of_subset h.answers

/-- What a session holds beside its files and answers does not matter. -/
theorem retains_of_same (hfiles : s'.files = s.files) (hdirectory : s'.directory = s.directory)
    (hanswers : s'.answers = s.answers) : Retains P s s' :=
  ⟨hdirectory, hanswers ▸ fun _ => id, fun _ => hfiles ▸ id⟩

instance : Frame.Requests (Retains P) where
  refl := .refl
  trans := .trans
  shown _ _ := retains_of_same rfl rfl rfl
  steps _ _ := retains_of_same rfl rfl rfl
  request _ _ _ := retains_of_same rfl rfl rfl
  waited _ _ := retains_of_same rfl rfl rfl

instance : Frame.Answers (Retains P) where
  answer s a as h := by
    refine ⟨rfl, fun b hb => h ▸ List.mem_cons_of_mem a hb, fun hidle hP => ?_⟩
    rw [show a.meanwhile = id from hidle a (h ▸ List.mem_cons_self ..)]
    exact hP

instance : Frame.Runs (Retains P) where
  did _ _ := retains_of_same rfl rfl rfl
  run _ _ _ _ := retains_of_same rfl rfl rfl

instance : Frame.Marks (Retains P) where
  progress _ _ := retains_of_same rfl rfl rfl

end

end InstanceInventory.Session

namespace InstanceInventory.Action
variable {α β : Type} {s : Session} {ok : α → Session → Prop} {bad : Fault → Session → Prop}

/-! ## Actions that only tell -/

/-- What follows an action that does nothing and does not end early. -/
theorem still_then {x : Action β} {f : β → Action α} (hx : x.Keeps Session.Still fun _ => False)
    (hf : ∀ b s', Session.Still s s' → (f b).Meets s' ok bad) : (x >>= f).Meets s ok bad :=
  hx.then_meets hf

theorem still_last {x : Action α} (hx : x.Keeps Session.Still fun _ => False)
    (hok : ∀ a s', Session.Still s s' → ok a s') : x.Meets s ok bad :=
  hx.meets hok fun _ _ _ hf => hf.elim

end InstanceInventory.Action
