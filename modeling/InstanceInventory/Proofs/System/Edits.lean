import InstanceInventory.Proofs.Keeper.Commit
import InstanceInventory.Proofs.Keeper.Courtesy
import InstanceInventory.Proofs.Keeper.Refinement
import InstanceInventory.Proofs.System.Sections

/-! # Several edits of one document

* `System.Gathered`: members, each with a keeper and an edit, begin to work on one document.
* `System.KeyStays`: the document holds a key, and will do so once the lock is given back. This goes on
  while no member takes the lock to remove the key.
* `System.updates_not_lost`: whatever the order of their steps, each member comes to what its section
  under the lock comes to alone, and no record is lost.
-/

namespace InstanceInventory
set_option autoImplicit false
open InstanceInventory.Action (Meets)
open Session (Did)

/-! ## Plans -/

/-- What an operation plans has a property. -/
def Stage.Plans {op : Operation} (P : op.Plan → Prop) : Stage op → Prop
  | before rest => rest.Yields fun plan => ∀ p, plan = some p → P p
  | opening plan | waiting plan | inside plan _ | leaving plan _ => P plan
  | ended _ => True

namespace System
variable {ι : Type} [DecidableEq ι]

section
variable {ops : ι → Operation} {S T : System ops} {i j : ι} {steps : List (ι × Bool)}
  {P : (i : ι) → (ops i).Plan → Prop}

theorem plans_put (h : ∀ j, (S.stages j).Plans (P j)) {s : Session} {stage : Stage (ops i)}
    (hstage : stage.Plans (P i)) : ∀ j, ((S.put i s stage).stages j).Plans (P j) := by
  intro j
  by_cases hj : j = i
  · subst hj
    rwa [put_stages_self]
  · rw [put_stages_of_ne hj]
    exact h j

/-- A step leaves the property of what is planned. -/
theorem plans_advance (h : ∀ j, (S.stages j).Plans (P j)) (i : ι) (isPatient : Bool) :
    ∀ j, ((S.advance i isPatient).stages j).Plans (P j) := by
  have hi := h i
  unfold advance
  cases hstage : S.stages i with
  | before rest =>
    rw [hstage] at hi
    cases rest with
    | step act next => exact plans_put h (Process.yields_step.1 hi _)
    | finished r =>
      match r with
      | .ok (some plan) => exact plans_put h (Process.yields_finished.1 hi plan rfl)
      | .ok none => exact plans_put h trivial
      | .error f => exact plans_put h trivial
  | opening plan =>
    rw [hstage] at hi
    refine plans_put h ?_
    generalize ((ops i).store.openLock.outcome (S.view i)).1 = r
    cases r with
    | ok _ => exact hi
    | error f => trivial
  | waiting plan =>
    rw [hstage] at hi
    dsimp only
    split
    · exact h
    · split
      · next s _ => exact plans_put (s := s) h hi
      · exact plans_put h trivial
  | inside plan rest =>
    rw [hstage] at hi
    cases rest with
    | step act next => exact plans_put h hi
    | finished r =>
      have hput : ∀ stage : Stage (ops i), stage.Plans (P i) → ∀ j,
          ((S.put i { S.view i with holdsLock := false } stage).stages j).Plans (P j) :=
        fun _ => plans_put h
      cases r with
      | ok outcome => exact hput (.leaving plan outcome) hi
      | error f => exact hput (.ended (.error f)) trivial
  | leaving plan outcome => exact plans_put h trivial
  | ended r => exact h

theorem plans_run (h : ∀ j, (S.stages j).Plans (P j)) (steps : List (ι × Bool)) :
    ∀ j, ((S.run steps).stages j).Plans (P j) := by
  induction steps generalizing S with
  | nil => exact h
  | cons step steps ih => exact ih (plans_advance h step.1 step.2)

end

/-! ## The document of all -/

/-- The operations of members, each with a keeper and an edit. -/
abbrev team (keepers : ι → Keeper) (edits : ι → Edit) (i : ι) : Operation :=
  (edits i).operation (keepers i)

section
variable {keepers : ι → Keeper} {edits : ι → Edit} {S T : System (team keepers edits)} {i j : ι}
  {key : String} {steps : List (ι × Bool)}

/-- The document of each member stands in the same place. -/
def Shares (S : System (team keepers edits)) : Prop :=
  ∀ i j, (S.sessions i).site (keepers i).store.path = (S.sessions j).site (keepers j).store.path

/-- Members begin to work on one document, and nobody else does. -/
structure Gathered (S : System (team keepers edits)) : Prop where
  starts : S.Starts
  document : ∀ i j, (S.sessions i).locate (keepers i).store.path =
    (S.sessions j).locate (keepers j).store.path
  idle : ∀ i, (S.sessions i).Idle

omit [DecidableEq ι] in
theorem Gathered.shares (h : S.Gathered) : S.Shares := fun i j =>
  congrArg Files.Path.target (h.document i j)

omit [DecidableEq ι] in
theorem Gathered.orderly (h : S.Gathered) : S.Orderly where
  holder i := by
    rw [h.starts.holder, h.starts.stages i]
    exact ⟨nofun, fun ⟨_, _, hstage⟩ => nomatch hstage⟩
  stages i := by
    rw [h.starts.stages i]
    exact ((edits i).courteous (keepers i)).before
  lock i j := by
    rw [Edit.store_operation, Edit.store_operation]
    exact Store.locate_lockPath (h.document i j)
  idle := h.idle
  stands i hi := by
    rw [h.starts.holder] at hi
    cases hi

omit [DecidableEq ι] in
/-- All see the same text in place of the document. -/
theorem Shares.text?_view (h : S.Shares) (i j : ι) :
    (keepers i).store.text? (S.view i) = (keepers j).store.text? (S.view j) := by
  have hheld : (keepers i).store.held? (S.view i) = (keepers j).store.held? (S.view j) :=
    congrArg S.files.fileAt? (h i j)
  rw [Store.text?, Store.text?, hheld]

omit [DecidableEq ι] in
theorem Shares.holdsKey_view (h : S.Shares) (hkey : (keepers i).store.HoldsKey key (S.view i))
    (j : ι) : (keepers j).store.HoldsKey key (S.view j) := by
  rw [Store.HoldsKey, h.text?_view j i]
  exact hkey

theorem Orderly.site_of_moves (h : S.Orderly) (hm : S.Moves i T) (j : ι) (path : Files.Path) :
    (T.sessions j).site path = (S.sessions j).site path := by
  rw [Session.site, Session.site, Session.locate, Session.locate, h.directory_of_moves hm]

theorem Shares.of_moves (hs : S.Shares) (h : S.Orderly) (hm : S.Moves i T) : T.Shares := by
  intro j l
  rw [h.site_of_moves hm, h.site_of_moves hm]
  exact hs j l

/-- Who does not hold the lock leaves the document. -/
theorem Orderly.text?_of_moves (h : S.Orderly) (hm : S.Moves i T) (hi : S.holder ≠ some i) (j : ι) :
    (keepers j).store.text? (T.view j) = (keepers j).store.text? (S.view j) := by
  have hlock : (S.sessions i).site (team keepers edits i).store.lockPath =
      (S.sessions j).site (keepers j).store.lockPath := by
    have hlocate := h.lock i j
    rw [Edit.store_operation (keepers j)] at hlocate
    exact congrArg Files.Path.target hlocate
  have hfile := h.fileAt?_of_moves hm hi
    (hlock ▸ (keepers j).store.site_ne_lock (S.sessions j))
  have hheld : (keepers j).store.held? (T.view j) = (keepers j).store.held? (S.view j) := by
    show T.files.fileAt? ((T.sessions j).site _) = S.files.fileAt? ((S.sessions j).site _)
    rw [h.site_of_moves hm, hfile]
  rw [Store.text?, Store.text?, hheld]

/-! ## A key that stays -/

/-- The document holds a key as it stands while nobody holds the lock, and as who holds the lock is
going to leave it. -/
structure KeyStays (S : System (team keepers edits)) (key : String) : Prop where
  free : S.holder = none → ∀ j, (keepers j).store.HoldsKey key (S.view j)
  held : ∀ j plan rest, S.stages j = .inside plan rest →
    (keepers j).store.HoldsKey key (rest.alone.outcome (S.view j)).2

omit [DecidableEq ι] in
/-- Who takes the lock for anything but to remove a key is going to leave the key in the document. -/
theorem KeyStays.of_takes (hkey : S.KeyStays key) (h : S.Orderly) {s : Session}
    {plan : (team keepers edits i).Plan} (hfree : S.holder = none)
    (hlocked : (team keepers edits i).store.Locked { S.view i with isLockedElsewhere := false } s)
    (hspared : ∀ forget, edits i ≠ .remove key forget) :
    (keepers i).store.HoldsKey key (((team keepers edits i).under plan).alone.outcome s).2 := by
  rw [Edit.store_operation] at hlocked
  have hidle : s.Idle := (h.idle i).of_subset hlocked.did.answers
  have hheld : (keepers i).store.HoldsKey key s :=
    (hkey.free hfree i).of_held? hlocked.held?
  have hcommits := Meets.outcome (P := fun _ t =>
    (keepers i).Commits ((edits i).Asked (keepers i) plan) s t)
    (Edit.under_commits plan hidle hlocked.reaches)
  exact hcommits.holdsKey (fun c hc => hc.spares hspared) hheld

/-- While nobody holds the lock, only who takes it can bear on a key. -/
theorem KeyStays.of_moves_free (hkey : S.KeyStays key) (h : S.Orderly) (hafter : T.Orderly)
    (hm : S.Moves i T) (hholder : S.holder = none)
    (hspared : T.holder = some i → ∀ forget, edits i ≠ .remove key forget) : T.KeyStays key := by
  have hi : S.holder ≠ some i := by rw [hholder]; exact nofun
  refine ⟨fun _ j => (hkey.free hholder j).of_text? (h.text?_of_moves hm hi j),
    fun j plan rest hstage => ?_⟩
  have hheld := (hafter.holder j).2 ⟨plan, rest, hstage⟩
  cases hm with
  | waits => exact absurd (hholder.symm.trans hheld) nofun
  | outside s stage => exact absurd (hholder.symm.trans hheld) nofun
  | takes s plan' hwaits hfree hlocked =>
    obtain rfl : i = j := Option.some.inj hheld
    cases stages_settled.symm.trans hstage
    have hview : (S.put i s (.inside plan' ((team keepers edits i).under plan'))).view i = s :=
      view_put_self
    exact hview.symm ▸ hkey.of_takes h hfree hlocked (hspared rfl)
  | works plan' act next hworks => exact absurd ((h.holder i).2 ⟨_, _, hworks⟩) hi
  | releases plan' r stage hreleases => exact absurd ((h.holder i).2 ⟨_, _, hreleases⟩) hi

/-- Who holds the lock comes closer to the document that it is going to leave, with the key. -/
theorem KeyStays.of_moves_held (hkey : S.KeyStays key) (h : S.Orderly) (hafter : T.Orderly)
    (hshares : S.Shares) (hm : S.Moves i T) (hholder : S.holder = some i) : T.KeyStays key := by
  cases hm with
  | waits => exact hkey
  | outside s stage hpath =>
    obtain ⟨plan, rest, hstage⟩ := (h.holder i).1 hholder
    rw [hstage] at hpath
    obtain ⟨hearly, -⟩ | ⟨_, _, hleaving, -⟩ := hpath
    · exact hearly.elim
    · cases hleaving
  | takes s plan hwaits hfree => exact absurd (hholder.symm.trans hfree) nofun
  | works plan act next hworks =>
    refine ⟨fun hnone => absurd (hholder.symm.trans hnone) nofun, fun j plan' rest hstage => ?_⟩
    obtain rfl := hafter.eq_of_inside hstage hholder
    cases put_stages_self.symm.trans hstage
    -- The action that is performed is the first of those left to do.
    have hheld := hkey.held i plan _ hworks
    rw [Process.outcome_alone_step] at hheld
    have hview : (S.perform i act fun r => .inside plan (next r)).view i =
        (act.outcome (S.view i)).2 := view_put_self
    exact hview.symm ▸ hheld
  | releases plan r stage hreleases hnext =>
    refine ⟨fun _ j => ?_, fun j plan' rest hstage => ?_⟩
    · have hheld : (keepers i).store.HoldsKey key (S.view i) := by
        have hlast := hkey.held i plan _ hreleases
        rwa [Process.outcome_alone_finished] at hlast
      refine (hshares.of_moves h (.releases plan r stage hreleases hnext)).holdsKey_view (i := i) ?_ j
      have hview : (S.put i { S.view i with holdsLock := false } stage).view i =
          { S.view i with holdsLock := false } := view_put_self
      exact hheld.of_text? ((congrArg (keepers i).store.text? hview).trans rfl)
    · exact absurd ((hafter.holder j).2 ⟨plan', rest, hstage⟩) nofun

/-- While another member holds the lock, a step changes nothing that bears on a key. -/
theorem KeyStays.of_moves_other (hkey : S.KeyStays key) (h : S.Orderly) (hafter : T.Orderly)
    (hm : S.Moves i T) {l : ι} (hholder : S.holder = some l) (hl : l ≠ i) : T.KeyStays key := by
  obtain ⟨hsame, hstages, hview⟩ := h.frame hm hholder hl
  refine ⟨fun hnone => absurd (hsame.symm.trans hnone) nofun, fun j plan rest hstage => ?_⟩
  obtain rfl := hafter.eq_of_inside hstage hsame
  rw [hstages] at hstage
  rw [hview]
  exact hkey.held l plan rest hstage

/-- A key stays in the document, unless a member takes the lock to remove it. -/
theorem KeyStays.of_moves (hkey : S.KeyStays key) (h : S.Orderly) (hshares : S.Shares)
    (hm : S.Moves i T)
    (hspared : S.holder = none → T.holder = some i → ∀ forget, edits i ≠ .remove key forget) :
    T.KeyStays key := by
  have hafter : T.Orderly := h.of_moves (fun j => (edits j).courteous (keepers j)) hm
  cases hholder : S.holder with
  | none => exact hkey.of_moves_free h hafter hm hholder (hspared hholder)
  | some l =>
    by_cases hl : l = i
    · exact hkey.of_moves_held h hafter hshares hm (hl ▸ hholder)
    · exact hkey.of_moves_other h hafter hm hholder hl

/-! ### In the course of a run -/

omit [DecidableEq ι] in
theorem courteous_team (keepers : ι → Keeper) (edits : ι → Edit) (i : ι) :
    (team keepers edits i).Courteous :=
  (edits i).courteous (keepers i)

/-- In the course of a run a member takes the lock to remove a key. -/
def Removes (S : System (team keepers edits)) (steps : List (ι × Bool)) (key : String) : Prop :=
  ∃ i forget plan u, edits i = .remove key forget ∧ S.Enters steps i plan u

theorem Shares.run (hs : S.Shares) (h : S.Orderly) (steps : List (ι × Bool)) :
    (S.run steps).Shares := by
  induction steps generalizing S with
  | nil => exact hs
  | cons step steps ih =>
    have hm := h.moves (courteous_team keepers edits) step.1 step.2
    exact ih (hs.of_moves h hm) (h.of_moves (courteous_team keepers edits) hm)

/-- A key stays in the document while no member takes the lock to remove it. -/
theorem KeyStays.run (hkey : S.KeyStays key) (h : S.Orderly) (hshares : S.Shares)
    (hnever : ¬ S.Removes steps key) : (S.run steps).KeyStays key := by
  induction steps using List.reverseRecOn with
  | nil => exact hkey
  | append_singleton steps step ih =>
    obtain ⟨i, isPatient⟩ := step
    have hbefore : ¬ S.Removes steps key := fun ⟨j, forget, plan, u, hedit, henters⟩ =>
      hnever ⟨j, forget, plan, u, hedit, henters.append _⟩
    have horder := h.run (courteous_team keepers edits) steps
    have hm := horder.moves (courteous_team keepers edits) i isPatient
    rw [run_concat]
    refine (ih hbefore).of_moves horder (hshares.run h steps) hm fun hfree htaken forget hedit => ?_
    obtain ⟨plan, hwaits⟩ := hm.exists_plan hfree htaken
    exact hnever ⟨i, forget, plan, _, hedit, steps, isPatient, [], rfl, hwaits, hfree, htaken, rfl⟩

variable {plan : (team keepers edits i).Plan} {u v : Session}
  {r : Except Fault (team keepers edits i).Outcome}

/-- Who takes the lock is left alone, and the document can be reached. -/
theorem Orderly.ready_of_enters (h : S.Orderly) (henters : S.Enters steps i plan u) :
    u.Idle ∧ (keepers i).store.Reaches u := by
  obtain ⟨first, -, -, hlocked⟩ := h.locked_of_enters (courteous_team keepers edits) henters
  rw [Edit.store_operation] at hlocked
  exact ⟨((h.run (courteous_team keepers edits) first).idle i).of_subset hlocked.did.answers,
    hlocked.reaches⟩

/-- A key that a member is going to leave in the document once it gives the lock back. -/
theorem Orderly.keyStays_of_enters (h : S.Orderly) (henters : S.Enters steps i plan u)
    (hholder : (S.run steps).holder = some i)
    (hkey : (keepers i).store.HoldsKey key (((team keepers edits i).under plan).alone.outcome u).2) :
    (S.run steps).KeyStays key := by
  have horder := h.run (courteous_team keepers edits) steps
  obtain ⟨plan', rest', hstage'⟩ := (horder.holder i).1 hholder
  refine ⟨fun hfree => absurd (hholder.symm.trans hfree) nofun, fun j plan'' rest'' hstage => ?_⟩
  obtain rfl : i = j := Option.some.inj
    (hholder.symm.trans ((horder.holder j).2 ⟨plan'', rest'', hstage⟩))
  rcases h.keeping_of_enters (courteous_team keepers edits) henters with ⟨rest, hinside, halone⟩ | hlate
  · cases hinside.symm.trans hstage
    rwa [halone] at hkey
  · rw [hstage'] at hlate
    exact hlate.elim

/-- Who takes the lock finds a key that stays in the document. -/
theorem KeyStays.holdsKey_of_enters (hkey : S.KeyStays key) (h : S.Orderly) (hshares : S.Shares)
    (hnever : ¬ S.Removes steps key) (henters : S.Enters steps i plan u) :
    (keepers i).store.HoldsKey key u := by
  obtain ⟨first, ⟨rest, rfl⟩, hfree, hlocked⟩ :=
    h.locked_of_enters (courteous_team keepers edits) henters
  rw [Edit.store_operation] at hlocked
  have hbefore : ¬ S.Removes first key := fun ⟨j, forget, plan, u, hedit, henters⟩ =>
    hnever ⟨j, forget, plan, u, hedit, henters.append _⟩
  have hfirst := (hkey.run h hshares hbefore).free hfree i
  exact hfirst.of_held? hlocked.held?

theorem Gathered.plans_run (h : S.Gathered) (steps : List (ι × Bool)) (i : ι) :
    ((S.run steps).stages i).Plans ((edits i).IsSound (keepers i)) := by
  refine System.plans_run (P := fun i => (edits i).IsSound (keepers i)) (fun j => ?_) steps i
  rw [h.starts.stages j]
  exact (edits j).before_yields (keepers j)

theorem Gathered.isSound_of_enters (h : S.Gathered) (henters : S.Enters steps i plan u) :
    (edits i).IsSound (keepers i) plan := by
  obtain ⟨first, isPatient, later, -, hwaits, -⟩ := henters
  have hplans := h.plans_run first i
  rw [hwaits] at hplans
  exact hplans

theorem Section.enters (h : S.Section steps i plan u r v) : S.Enters steps i plan u := by
  obtain ⟨first, isPatient, later, rfl, henters, -⟩ := h
  exact henters.append _

/-! ## No update is lost -/

/-- In the course of a run the section of a member creates an instance from a draft, in a document that
held certain keys. -/
def Creates (S : System (team keepers edits)) (steps : List (ι × Bool)) (i : ι) (d : Draft)
    (keys : List String) (u v : Session) : Prop :=
  ∃ plan outcome, S.Section steps i plan u (.ok outcome) v ∧
    (edits i).newDraft? (keepers i) plan = some d ∧
    (edits i).keysBefore? (keepers i) outcome = some keys

/-- What becomes of members that work on one document. -/
structure Isolated (S : System (team keepers edits)) (steps : List (ι × Bool)) : Prop where
  /-- Only who holds the lock changes a file other than that of the lock. -/
  outside : ∀ {first i isPatient later}, steps = first ++ (i, isPatient) :: later →
    (S.run first).holder ≠ some i → ∀ p, p ≠ (S.sessions i).site (keepers i).store.lockPath →
    ((S.run first).advance i isPatient).files.fileAt? p = (S.run first).files.fileAt? p
  /-- So who never gets the lock changes nothing. -/
  never : ∀ {i}, (∀ plan u, ¬ S.Enters steps i plan u) → ∀ {first isPatient later},
    steps = first ++ (i, isPatient) :: later →
    ∀ p, p ≠ (S.sessions i).site (keepers i).store.lockPath →
    ((S.run first).advance i isPatient).files.fileAt? p = (S.run first).files.fileAt? p
  /-- Who takes the lock finds the document as it stands at that moment, when nobody holds the lock. -/
  found : ∀ {i plan u}, S.Enters steps i plan u → ∃ first, first <+: steps ∧
    (S.run first).holder = none ∧
    (keepers i).store.Locked { (S.run first).view i with isLockedElsewhere := false } u
  /-- What comes of a section, and the session after it, is what comes of it alone. -/
  alone : ∀ {i plan u r v}, S.Section steps i plan u r v →
    ((team keepers edits i).under plan).alone.outcome u = (r, v)
  /-- The result of a member is that of its section. -/
  account : ∀ i, S.Account steps i ((S.run steps).stages i)
  /-- Who is done, or only has to tell about it, does not hold the lock, and who holds it gives it
  back. -/
  released : ∀ i, (((S.run steps).stages i).IsLate → (S.run steps).holder ≠ some i) ∧
    ∃ n, ((S.run steps).run (List.replicate n (i, true))).holder ≠ some i
  /-- Where an instance is created its draft is put at the end of the document that was found, whose
  records all stay. -/
  created : ∀ {i d key keys u v}, S.Creates steps i d keys u v → d.key = .ok key →
    (keepers i).Creates d key keys u v
  /-- Once a member that holds the lock creates an instance under a key, and while nobody takes the lock
  to remove the key, others that are to create an instance under it are refused, and do nothing. -/
  refused : ∀ {first later i plan u outcome v d key keys}, steps = first ++ later →
    S.Enters first i plan u → (S.run first).holder = some i →
    S.Section steps i plan u (.ok outcome) v → (edits i).newDraft? (keepers i) plan = some d →
    (edits i).keysBefore? (keepers i) outcome = some keys → d.key = .ok key →
    ¬ (S.run first).Removes later key →
    ∀ {j plan' u' r v' d'}, (S.run first).Section later j plan' u' r v' →
    (edits j).newDraft? (keepers j) plan' = some d' → d'.key = .ok key →
    (∃ name, r = .error (.report (.duplicateRecord key name))) ∧ ∃ text, Did ∅ [.read text] u' v'
  /-- So no two members create instances under one key, unless somebody takes the lock to remove it. -/
  once : ∀ {i j d d' keys keys' u u' v v' key}, S.Creates steps i d keys u v →
    S.Creates steps j d' keys' u' v' → d.key = .ok key → d'.key = .ok key →
    ¬ S.Removes steps key → i = j

omit [DecidableEq ι] in
theorem Gathered.isEarly (h : S.Gathered) (i : ι) : (S.stages i).IsEarly := by
  rw [h.starts.stages i]
  trivial

/-- A section that creates an instance does so at the end of the document that it found. -/
theorem Gathered.creates_of_section (h : S.Gathered) {outcome : (team keepers edits i).Outcome}
    {d : Draft} {keys : List String} (hsection : S.Section steps i plan u (.ok outcome) v)
    (hdraft : (edits i).newDraft? (keepers i) plan = some d)
    (hkeys : (edits i).keysBefore? (keepers i) outcome = some keys) (hkey : d.key = .ok key) :
    (keepers i).Creates d key keys u v := by
  obtain ⟨hidle, hreaches⟩ := h.orderly.ready_of_enters hsection.enters
  exact Edit.creates_of_outcome hidle hreaches (h.isSound_of_enters hsection.enters) hdraft hkey hkeys
    (h.orderly.section_alone (courteous_team keepers edits) hsection)

/-- Once a member that holds the lock creates an instance under a key, others are refused it while
nobody takes the lock to remove the key. -/
theorem Gathered.refused (h : S.Gathered) {first later : List (ι × Bool)}
    {outcome : (team keepers edits i).Outcome} {d d' : Draft} {keys : List String}
    (henters : S.Enters first i plan u) (hholder : (S.run first).holder = some i)
    (hsection : S.Section (first ++ later) i plan u (.ok outcome) v)
    (hdraft : (edits i).newDraft? (keepers i) plan = some d)
    (hkeys : (edits i).keysBefore? (keepers i) outcome = some keys) (hkey : d.key = .ok key)
    (hnever : ¬ (S.run first).Removes later key) {plan' : (team keepers edits j).Plan}
    {u' v' : Session} {r' : Except Fault (team keepers edits j).Outcome}
    (hsection' : (S.run first).Section later j plan' u' r' v')
    (hdraft' : (edits j).newDraft? (keepers j) plan' = some d') (hkey' : d'.key = .ok key) :
    (∃ name, r' = .error (.report (.duplicateRecord key name))) ∧ ∃ text, Did ∅ [.read text] u' v' := by
  have horder := h.orderly.run (courteous_team keepers edits) first
  have hshares := h.shares.run h.orderly first
  have hleft := (h.creates_of_section hsection hdraft hkeys hkey).holdsKey
  have halone := h.orderly.section_alone (courteous_team keepers edits) hsection
  have hstays : (S.run first).KeyStays key :=
    h.orderly.keyStays_of_enters henters hholder (by rwa [halone])
  have hheld := hstays.holdsKey_of_enters horder hshares hnever hsection'.enters
  exact Edit.refused_of_outcome (horder.ready_of_enters hsection'.enters).2 hheld
    (h.isSound_of_enters hsection'.enters.after) hdraft' hkey'
    (horder.section_alone (courteous_team keepers edits) hsection')

/-- Of two members that create instances under one key the first one to take the lock is the only one,
unless somebody takes the lock to remove the key. -/
theorem Gathered.not_creates_after (h : S.Gathered) {before after : List (ι × Bool)} {isPatient : Bool}
    {outcome : (team keepers edits i).Outcome} {d d' : Draft} {keys : List String}
    {plan' : (team keepers edits j).Plan} {outcome' : (team keepers edits j).Outcome} {u' v' : Session}
    (henters : S.Enters (before ++ [(i, isPatient)]) i plan u)
    (hholder : (S.run (before ++ [(i, isPatient)])).holder = some i)
    (hsection : S.Section (before ++ (i, isPatient) :: after) i plan u (.ok outcome) v)
    (hdraft : (edits i).newDraft? (keepers i) plan = some d)
    (hkeys : (edits i).keysBefore? (keepers i) outcome = some keys) (hkey : d.key = .ok key)
    (hsection' : (S.run (before ++ [(i, isPatient)])).Section after j plan' u' (.ok outcome') v')
    (hdraft' : (edits j).newDraft? (keepers j) plan' = some d') (hkey' : d'.key = .ok key)
    (hnever : ¬ S.Removes (before ++ (i, isPatient) :: after) key) : False := by
  rw [List.append_cons] at hsection hnever
  have hlater : ¬ (S.run (before ++ [(i, isPatient)])).Removes after key :=
    fun ⟨l, forget, p, w, hedit, hentered⟩ => hnever ⟨l, forget, p, w, hedit, hentered.after⟩
  obtain ⟨⟨name, herror⟩, -⟩ := h.refused henters hholder hsection hdraft hkeys hkey hlater hsection'
    hdraft' hkey'
  cases herror

/-- Whatever the order of their steps, members that work on one document come to what their sections
under the lock come to alone, and none of them undoes what another has done. -/
theorem updates_not_lost (h : S.Gathered) (steps : List (ι × Bool)) : S.Isolated steps := by
  have hops := courteous_team keepers edits
  have houtside : ∀ {first : List (ι × Bool)} {i isPatient}, (S.run first).holder ≠ some i →
      ∀ p, p ≠ (S.sessions i).site (keepers i).store.lockPath →
      ((S.run first).advance i isPatient).files.fileAt? p = (S.run first).files.fileAt? p := by
    intro first i isPatient hi p hp
    have horder := h.orderly.run hops first
    refine horder.fileAt?_of_moves (horder.moves hops i isPatient) hi ?_
    rw [Edit.store_operation, Session.site, Session.locate, h.orderly.directory_run hops]
    exact hp
  refine ⟨fun _ => houtside, fun {i} hnever {first isPatient later} hsteps => houtside fun hholder => ?_,
    fun henters => h.orderly.locked_of_enters hops henters |>.imp fun _ hfirst => ?_,
    h.orderly.section_alone hops, h.orderly.account hops h.isEarly steps, fun i => ⟨fun hlate hholder => ?_,
      (h.orderly.run hops steps).exists_release hops i⟩, ?_, ?_, ?_⟩
  · obtain ⟨plan, rest, hstage⟩ := ((h.orderly.run hops first).holder i).1 hholder
    have haccount := h.orderly.account hops h.isEarly first i
    rw [hstage] at haccount
    cases haccount with
    | early hearly => exact hearly.elim
    | inside henters => exact hnever _ _ (hsteps ▸ henters.append _)
  · rwa [Edit.store_operation] at hfirst
  · obtain ⟨plan, rest, hstage⟩ := ((h.orderly.run hops steps).holder i).1 hholder
    rw [hstage] at hlate
    exact hlate.elim
  · rintro i d key keys u v ⟨plan, outcome, hsection, hdraft, hkeys⟩ hkey
    exact h.creates_of_section hsection hdraft hkeys hkey
  · rintro first later i plan u outcome v d key keys rfl henters hholder hsection hdraft hkeys hkey hnever
    exact h.refused henters hholder hsection hdraft hkeys hkey hnever
  · rintro i j d d' keys keys' u u' v v' key ⟨plan, outcome, hsection, hdraft, hkeys⟩
      ⟨plan', outcome', hsection', hdraft', hkeys'⟩ hkey hkey' hnever
    obtain ⟨before, isPatient, after, rfl, henters, hholder, hrest⟩ := hsection.exists_step
    obtain ⟨before', isPatient', after', hsteps, henters', hholder', hrest'⟩ := hsection'.exists_step
    have hsplit := hsteps
    rcases List.append_eq_append_iff.1 hsplit with ⟨middle, rfl, hrun⟩ | ⟨middle, rfl, hrun⟩
    · rcases List.cons_eq_append_iff.1 hrun with ⟨rfl, heq⟩ | ⟨middle, rfl, rfl⟩
      · exact (Prod.mk.inj (List.cons.inj heq).1).1.symm
      · have hlater := hrest' (before ++ [(i, isPatient)]) middle (by simp)
        exact (h.not_creates_after henters hholder hsection hdraft hkeys hkey hlater hdraft' hkey'
          hnever).elim
    · rcases List.cons_eq_append_iff.1 hrun with ⟨rfl, heq⟩ | ⟨middle, rfl, rfl⟩
      · exact (Prod.mk.inj (List.cons.inj heq).1).1
      · rw [hsteps] at hsection' hnever
        have hlater := hrest (before' ++ [(j, isPatient')]) middle (by simp)
        exact (h.not_creates_after henters' hholder' hsection' hdraft' hkeys' hkey' hlater hdraft hkey
          hnever).elim

end

/-- A document that holds a key already. -/
def exampleFiles : Files.Tree where
  entries := [
    (["srv"], Files.Tree.newDirectory),
    (["srv", "main.tf"], .file "locals \x7b\n  instances = \x7b\n    db = \x7b\x7d\n  \x7d\n\x7d\n".toUTF8 0o644)]

/-- Two members are to create an instance under the same key. -/
def exampleStart : System (team (fun _ : Bool => Ledger.exampleKeeper) fun _ => .create) where
  files := exampleFiles
  holder := none
  stages _ := .before (Edit.create.operation Ledger.exampleKeeper).before
  sessions _ := Ledger.exampleSession

/-- The members take turns. -/
def exampleSteps (turns : Nat) : List (Bool × Bool) :=
  (List.replicate turns [(true, true), (false, true)]).flatten

/-- Both ask for the instance before one of them takes the lock, under which it adds the record; the
other one waits for the lock, and is refused. -/
theorem updates_not_lost_example :
    exampleStart.Gathered ∧ (exampleStart.run (exampleSteps 18)).holder = none ∧
      (exampleStart.run (exampleSteps 19)).holder = some true ∧
      exampleStart.Isolated (exampleSteps 32) := by
  have hgathered : exampleStart.Gathered :=
    ⟨⟨rfl, fun _ => rfl⟩, fun _ _ => rfl, fun _ => Ledger.exampleSession_idle⟩
  exact ⟨hgathered, by decide +kernel, by decide +kernel, updates_not_lost hgathered _⟩

end System
end InstanceInventory
