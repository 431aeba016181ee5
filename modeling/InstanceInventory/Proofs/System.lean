import InstanceInventory.Proofs.Operation
import InstanceInventory.System

/-! # Several at work on one document

* `Operation.Courteous`: an operation leaves the files alone unless it holds the lock, and the file of
  the lock while it holds it.
* `System.Moves`: what a member can do next.
* `System.Orderly`: the lock is held by the member that is inside, and its file stands then. This holds
  all along a run.
* `System.Section`: a member takes the lock and gives it back in the course of a run.
* `Orderly.account`: under the lock a member does what it does alone, whatever the others do.
* `Orderly.exists_release`: who holds the lock gives it back.
-/

namespace InstanceInventory
set_option autoImplicit false
open InstanceInventory.Action (Meets)
open Session (Did Retains)

/-- An operation leaves the files alone before it takes the lock and once it has given it back, and
leaves the file of the lock in its place while it holds it. Only the console can refuse what is said
at the end. -/
structure Operation.Courteous (op : Operation) : Prop where
  before : ∀ P, op.before.Keeps (Retains P)
  under : ∀ plan, (op.under plan).Keeps op.store.Guards
  after : ∀ P plan outcome, (op.after plan outcome).Keeps (Retains P) Fault.IsOfConsole

namespace Stage
variable {op : Operation}

/-- The lock was not taken yet. -/
def IsEarly : Stage op → Prop
  | before _ | opening _ | waiting _ => True
  | _ => False

/-- The lock is not wanted any more. -/
def IsLate : Stage op → Prop
  | leaving .. | ended _ => True
  | _ => False

/-- An operation ended, and at most the console has refused what was to be said. -/
def IsTold : Stage op → Prop
  | ended (.ok _) => True
  | ended (.error f) => f.IsOfConsole
  | _ => False

/-- What is left to do is courteous. -/
def IsCourteous : Stage op → Prop
  | before rest => ∀ P, rest.Keeps (Retains P)
  | inside _ rest => rest.Keeps op.store.Guards
  | _ => True

theorem IsTold.isLate {stage : Stage op} (h : stage.IsTold) : stage.IsLate := by
  cases stage with
  | ended r => trivial
  | _ => exact h.elim

end Stage

/-- An action that leaves the files alone leaves them as they are. -/
theorem Action.Keeps.files_eq {α : Type} {act : Action α} {kind : Fault → Prop}
    (h : ∀ P, act.Keeps (Retains P) kind) {s : Session} (hs : s.Idle) :
    (act.outcome s).2.files = s.files :=
  ((h fun _ t => t = s.files).outcome s).files hs rfl

namespace System
variable {ι : Type} {ops : ι → Operation} {S T : System ops} {i j : ι} {isPatient : Bool}

/-! ## Order -/

/-- The lock is held by the member that is inside, and its file stands in its place then. The lock is
the same for all, what is left to do is courteous, and only members touch files. -/
structure Orderly (S : System ops) : Prop where
  holder : ∀ i, S.holder = some i ↔ ∃ plan rest, S.stages i = .inside plan rest
  stages : ∀ i, (S.stages i).IsCourteous
  lock : ∀ i j, (S.sessions i).locate (ops i).store.lockPath =
    (S.sessions j).locate (ops j).store.lockPath
  idle : ∀ i, (S.sessions i).Idle
  stands : ∀ i, S.holder = some i → (ops i).store.Guarded (S.sessions i).directory S.files

/-- Only who holds the lock is inside. -/
theorem Orderly.eq_of_inside (h : S.Orderly) {plan : (ops j).Plan}
    {rest : Process (ops j).Outcome} (hstage : S.stages j = .inside plan rest)
    (hi : S.holder = some i) : i = j :=
  Option.some.inj (hi.symm.trans ((h.holder j).2 ⟨plan, rest, hstage⟩))

/-- The file of the lock stands in its place for all while anybody holds the lock. -/
theorem Orderly.guarded (h : S.Orderly) (hheld : S.holder ≠ none) (i : ι) :
    (ops i).store.Guarded (S.sessions i).directory S.files := by
  obtain ⟨j, hj⟩ := Option.ne_none_iff_exists'.1 hheld
  obtain ⟨content, hcontent⟩ := h.stands j hj
  refine ⟨content, ?_⟩
  have hlock := h.lock i j
  unfold Session.locate at hlock
  rw [hlock]
  exact hcontent

/-! ## What a member can do -/

variable [DecidableEq ι]

/-- What a member can do next: nothing; something outside of the lock, which leaves every file but
that of the lock, and that one too while somebody holds it; to take the lock, if nobody holds it; a step
under the lock; and to give it back. -/
inductive Moves (S : System ops) (i : ι) : System ops → Prop
  | waits : Moves S i S
  | outside (s : Session) (stage : Stage (ops i))
    (hstage : (S.stages i).IsEarly ∧ (stage.IsEarly ∨ ∃ r, stage = .ended r) ∨
      ∃ plan outcome, S.stages i = .leaving plan outcome ∧ stage.IsTold)
    (hcourteous : stage.IsCourteous) (hdirectory : s.directory = (S.sessions i).directory)
    (hanswers : s.answers ⊆ (S.sessions i).answers)
    (hfiles : ∀ p, p ≠ (S.sessions i).site (ops i).store.lockPath →
      s.files.fileAt? p = S.files.fileAt? p)
    (hheld : S.holder ≠ none → s.files = S.files) : Moves S i (S.put i s stage)
  | takes (s : Session) (plan : (ops i).Plan) (hstage : S.stages i = .waiting plan)
    (hfree : S.holder = none)
    (hlocked : (ops i).store.Locked { S.view i with isLockedElsewhere := false } s) :
    Moves S i { S.put i s (.inside plan ((ops i).under plan)) with holder := some i }
  | works {α : Type} (plan : (ops i).Plan) (act : Action α)
    (next : Except Fault α → Process (ops i).Outcome)
    (hstage : S.stages i = .inside plan (.step act next)) :
    Moves S i (S.perform i act fun r => .inside plan (next r))
  | releases (plan : (ops i).Plan) (r : Except Fault (ops i).Outcome) (stage : Stage (ops i))
    (hstage : S.stages i = .inside plan (.finished r))
    (hnext : (∃ outcome, r = .ok outcome ∧ stage = .leaving plan outcome) ∨
      ∃ f, r = .error f ∧ stage = .ended (.error f)) :
    Moves S i { S.put i { S.view i with holdsLock := false } stage with holder := none }

section
variable {s : Session} {stage : Stage (ops i)}

@[simp] theorem put_stages_self : (S.put i s stage).stages i = stage :=
  Function.update_self ..

/-- The same, where the lock is taken or given back as well. -/
theorem stages_settled {holder : Option ι} :
    ({ S.put i s stage with holder } : System ops).stages i = stage :=
  Function.update_self ..

theorem put_stages_of_ne (h : j ≠ i) : (S.put i s stage).stages j = S.stages j :=
  Function.update_of_ne h ..

@[simp] theorem put_sessions_self : (S.put i s stage).sessions i = s :=
  Function.update_self ..

theorem put_sessions_of_ne (h : j ≠ i) : (S.put i s stage).sessions j = S.sessions j :=
  Function.update_of_ne h ..

@[simp] theorem view_put_self : (S.put i s stage).view i = s := by
  rw [view, put_sessions_self]
  rfl

end

/-- What leaves the files alone is done outside of the lock. -/
theorem Orderly.moves_perform (h : S.Orderly) {α : Type} {act : Action α} {kind : Fault → Prop}
    {next : Except Fault α → Stage (ops i)} (hact : ∀ P, act.Keeps (Retains P) kind)
    (hstage : (S.stages i).IsEarly ∧ ((next (act.outcome (S.view i)).1).IsEarly ∨
        ∃ r, next (act.outcome (S.view i)).1 = .ended r) ∨
      ∃ plan outcome, S.stages i = .leaving plan outcome ∧
        (next (act.outcome (S.view i)).1).IsTold)
    (hcourteous : (next (act.outcome (S.view i)).1).IsCourteous) :
    S.Moves i (S.perform i act next) := by
  have hkeeps := (hact fun _ _ => True).outcome (S.view i)
  have hfiles : (act.outcome (S.view i)).2.files = S.files :=
    Action.Keeps.files_eq hact (h.idle i)
  exact .outside _ _ hstage hcourteous hkeeps.directory hkeeps.answers
    (fun p _ => congrArg (Files.Tree.fileAt? · p) hfiles) fun _ => hfiles

/-- Opening the lock does nothing while somebody holds it. -/
theorem Orderly.moves_open (h : S.Orderly) {plan : (ops i).Plan} (hstage : S.stages i = .opening plan)
    {next : Except Fault Unit → Stage (ops i)}
    (hnext : ∀ r, next r = .waiting plan ∨ ∃ f, next r = .ended f) :
    S.Moves i (S.perform i (ops i).store.openLock next) := by
  have hopened := (ops i).store.openLock_meets (S.view i)
  have hdid : Did {(S.view i).site (ops i).store.lockPath} [] (S.view i)
      ((ops i).store.openLock.outcome (S.view i)).2 :=
    Meets.outcome (P := fun _ s => Did {(S.view i).site (ops i).store.lockPath} [] (S.view i) s)
      (hopened.imp (fun _ _ hs => hs.1) fun _ _ hs => hs.1)
  have hheld : S.holder ≠ none →
      ((ops i).store.openLock.outcome (S.view i)).2.files = S.files := fun hholder =>
    Meets.outcome (P := fun _ s => s.files = S.files)
      ((Store.openLock_guarded (h.guarded hholder i)).imp (fun _ _ hs => hs ▸ rfl)
        fun _ _ hf => hf.elim)
  refine .outside _ _ (.inl ⟨by rw [hstage]; trivial, ?_⟩) ?_ hdid.directory hdid.answers
    (fun p hp => hdid.files p hp) hheld
  · rcases hnext ((ops i).store.openLock.outcome (S.view i)).1 with hr | hr
    · exact .inl (hr ▸ trivial)
    · exact .inr hr
  · rcases hnext ((ops i).store.openLock.outcome (S.view i)).1 with hr | ⟨f, hr⟩
    · exact hr ▸ trivial
    · exact hr ▸ trivial

/-- Every step of a member is one of these. -/
theorem Orderly.moves (h : S.Orderly) (hops : ∀ i, (ops i).Courteous) (i : ι) (isPatient : Bool) :
    S.Moves i (S.advance i isPatient) := by
  have hcourteous := h.stages i
  -- A member may go on to another stage without a step of its own.
  have hsame : ∀ stage : Stage (ops i), (S.stages i).IsEarly →
      (stage.IsEarly ∨ ∃ r, stage = .ended r) → stage.IsCourteous → S.Moves i (S.put i (S.view i) stage) :=
    fun stage hearly hstage hleft => .outside _ _ (.inl ⟨hearly, hstage⟩) hleft rfl (fun _ => id)
      (fun _ _ => rfl) fun _ => rfl
  unfold advance
  cases hstage : S.stages i with
  | before rest =>
    rw [hstage] at hcourteous
    have hearly : (S.stages i).IsEarly := hstage ▸ trivial
    cases rest with
    | step act next =>
      exact h.moves_perform (fun P => (hcourteous P).1) (.inl ⟨hearly, .inl trivial⟩)
        fun P => (hcourteous P).2 _
    | finished r =>
      match r with
      | .ok (some plan) => exact hsame _ hearly (.inl trivial) trivial
      | .ok none => exact hsame _ hearly (.inr ⟨_, rfl⟩) trivial
      | .error f => exact hsame _ hearly (.inr ⟨_, rfl⟩) trivial
  | opening plan =>
    refine h.moves_open hstage fun r => ?_
    cases r with
    | ok _ => exact .inl rfl
    | error f => exact .inr ⟨_, rfl⟩
  | waiting plan =>
    have hearly : (S.stages i).IsEarly := hstage ▸ trivial
    dsimp only
    split
    · exact .waits
    · have htaken := (ops i).store.takeLock_meets
        { S.view i with isLockedElsewhere := S.holder.isSome }
      split
      · next s hs =>
        -- What the member sees of the lock is whether another one holds it.
        have hfree : S.holder = none := by
          by_contra hholder
          exact (Store.takeLock_refused (Option.isSome_iff_ne_none.2 hholder)).of_value hs
        have hlocked := htaken.of_value hs
        rw [hfree] at hlocked
        exact .takes s plan hstage hfree hlocked
      · next f s hs =>
        obtain ⟨rfl, -⟩ := htaken.of_fault hs
        exact .outside _ _ (.inl ⟨hearly, .inr ⟨_, rfl⟩⟩) trivial rfl (fun _ => id) (fun _ _ => rfl)
          fun _ => rfl
  | inside plan rest =>
    cases rest with
    | step act next => exact .works plan act next hstage
    | finished r =>
      refine .releases plan r _ hstage ?_
      cases r with
      | ok outcome => exact .inl ⟨outcome, rfl, rfl⟩
      | error f => exact .inr ⟨f, rfl, rfl⟩
  | leaving plan outcome =>
    have hafter := fun P => (hops i).after P plan outcome
    refine h.moves_perform hafter (.inr ⟨plan, outcome, hstage, ?_⟩) trivial
    exact Meets.outcome (P := fun r _ => (Stage.ended r : Stage (ops i)).IsTold)
      ((hafter (fun _ _ => True) (S.view i)).imp (fun _ _ _ => trivial) fun _ _ hf => hf.2)
  | ended r => exact .waits

/-! ## What a step preserves -/

/-- A member that comes to a stage keeps a system in order, if the holder of the lock is then the one
that is inside. -/
theorem Orderly.put (h : S.Orderly) {s : Session} {stage : Stage (ops i)} {holder : Option ι}
    (hdirectory : s.directory = (S.sessions i).directory)
    (hanswers : s.answers ⊆ (S.sessions i).answers) (hstage : stage.IsCourteous)
    (hholder : ∀ j, holder = some j ↔ ∃ plan rest, (S.put i s stage).stages j = .inside plan rest)
    (hstands : ∀ j, holder = some j → (ops j).store.Guarded (S.sessions j).directory s.files) :
    Orderly { S.put i s stage with holder } := by
  have hdirectories : ∀ j, ((S.put i s stage).sessions j).directory = (S.sessions j).directory := by
    intro j
    by_cases hj : j = i
    · subst hj
      rw [put_sessions_self, hdirectory]
    · rw [put_sessions_of_ne hj]
  have hlocate : ∀ j path, ((S.put i s stage).sessions j).locate path =
      (S.sessions j).locate path := fun j path => congrArg (Files.Path.join · path) (hdirectories j)
  refine ⟨hholder, fun j => ?_, fun j l => ?_, fun j => ?_, fun j hj => ?_⟩
  · show ((S.put i s stage).stages j).IsCourteous
    by_cases hj : j = i
    · subst hj
      rwa [put_stages_self]
    · rw [put_stages_of_ne hj]
      exact h.stages j
  · exact (hlocate j _).trans ((h.lock j l).trans (hlocate l _).symm)
  · show ((S.put i s stage).sessions j).Idle
    by_cases hj : j = i
    · subst hj
      rw [put_sessions_self]
      exact (h.idle j).of_subset hanswers
    · rw [put_sessions_of_ne hj]
      exact h.idle j
  · exact (hdirectories j).symm ▸ hstands j hj

/-- A stage outside of the lock leaves it with whom it is. -/
theorem Orderly.holder_put (h : S.Orderly) {s : Session} {stage : Stage (ops i)}
    (hbefore : ∀ plan rest, S.stages i ≠ .inside plan rest)
    (hafter : ∀ plan rest, stage ≠ .inside plan rest) :
    ∀ j, S.holder = some j ↔ ∃ plan rest, (S.put i s stage).stages j = .inside plan rest := by
  intro j
  by_cases hj : j = i
  · subst hj
    rw [put_stages_self, h.holder]
    exact ⟨fun ⟨plan, rest, hin⟩ => absurd hin (hbefore plan rest),
      fun ⟨plan, rest, hin⟩ => absurd hin (hafter plan rest)⟩
  · rw [put_stages_of_ne hj, h.holder]

/-- A step of a member keeps a system in order. -/
theorem Orderly.of_moves (h : S.Orderly) (hops : ∀ i, (ops i).Courteous) (hm : S.Moves i T) :
    T.Orderly := by
  cases hm with
  | waits => exact h
  | outside s stage hstage hcourteous hdirectory hanswers hfiles hheld =>
    have hbefore : ∀ plan rest, S.stages i ≠ .inside plan rest := by
      intro plan rest hin
      rw [hin] at hstage
      obtain ⟨hearly, -⟩ | ⟨_, _, hleaving, -⟩ := hstage
      · exact hearly
      · cases hleaving
    have hafter : ∀ plan rest, stage ≠ .inside plan rest := by
      rintro plan rest rfl
      obtain ⟨-, hearly | ⟨_, hended⟩⟩ | ⟨_, _, -, htold⟩ := hstage
      · exact hearly
      · cases hended
      · exact htold
    refine h.put hdirectory hanswers hcourteous (h.holder_put hbefore hafter) fun j hj => ?_
    rw [hheld (by rw [hj]; exact nofun)]
    exact h.stands j hj
  | takes s plan hstage hfree hlocked =>
    refine h.put hlocked.did.directory hlocked.did.answers ((hops i).under plan) (fun j => ?_) ?_
    · by_cases hj : j = i
      · subst hj
        rw [put_stages_self]
        exact ⟨fun _ => ⟨plan, _, rfl⟩, fun _ => rfl⟩
      · rw [put_stages_of_ne hj, ← h.holder, hfree]
        exact ⟨fun heq => absurd (Option.some.inj heq).symm hj, nofun⟩
    · rintro _ ⟨⟩
      have hguarded := hlocked.guarded
      rw [hlocked.did.directory] at hguarded
      exact hguarded
  | works plan act next hstage =>
    have hholder := (h.holder i).2 ⟨plan, _, hstage⟩
    have hcourteous := h.stages i
    rw [hstage] at hcourteous
    have hkeeps := hcourteous.1.outcome (S.view i)
    refine h.put hkeeps.directory hkeeps.answers (hcourteous.2 _) (fun j => ?_) fun j hj => ?_
    · by_cases hj : j = i
      · subst hj
        rw [put_stages_self]
        exact ⟨fun _ => ⟨plan, _, rfl⟩, fun _ => hholder⟩
      · rw [put_stages_of_ne hj, h.holder]
    · obtain rfl : i = j := Option.some.inj (hholder.symm.trans hj)
      exact hkeeps.files (h.idle i) (h.stands i hholder)
  | releases plan r stage hstage hnext =>
    have hholder := (h.holder i).2 ⟨plan, _, hstage⟩
    have hcourteous : stage.IsCourteous := by
      obtain ⟨_, -, rfl⟩ | ⟨_, -, rfl⟩ := hnext
      · trivial
      · trivial
    refine h.put rfl (fun _ => id) hcourteous (fun j => ?_) nofun
    by_cases hj : j = i
    · subst hj
      rw [put_stages_self]
      refine ⟨nofun, fun ⟨_, _, hin⟩ => ?_⟩
      obtain ⟨_, -, rfl⟩ | ⟨_, -, rfl⟩ := hnext
      · cases hin
      · cases hin
    · rw [put_stages_of_ne hj, ← h.holder, hholder]
      exact ⟨nofun, fun heq => absurd (Option.some.inj heq).symm hj⟩

/-- A step of a member leaves each in the directory where it is. -/
theorem Orderly.directory_of_moves (h : S.Orderly) (hm : S.Moves i T) (j : ι) :
    (T.sessions j).directory = (S.sessions j).directory := by
  have hput : ∀ {s : Session} (stage : Stage (ops i)), s.directory = (S.sessions i).directory →
      ((S.put i s stage).sessions j).directory = (S.sessions j).directory := by
    intro s stage hs
    by_cases hj : j = i
    · subst hj
      rw [put_sessions_self, hs]
    · rw [put_sessions_of_ne hj]
  cases hm with
  | waits => rfl
  | outside s stage _ _ hdirectory => exact hput stage hdirectory
  | takes s plan _ _ hlocked => exact hput (.inside plan ((ops i).under plan)) hlocked.did.directory
  | works plan act next hstage =>
    have hcourteous := h.stages i
    rw [hstage] at hcourteous
    exact hput (.inside plan (next (act.outcome (S.view i)).1))
      (hcourteous.1.outcome (S.view i)).directory
  | releases plan r stage hstage => exact hput stage rfl

/-- While a member holds the lock the others leave it alone, and the files as well. -/
theorem Orderly.frame (h : S.Orderly) (hm : S.Moves i T) (hj : S.holder = some j) (hij : j ≠ i) :
    T.holder = some j ∧ T.stages j = S.stages j ∧ T.view j = S.view j := by
  have houtside : ∀ plan rest, S.stages i ≠ .inside plan rest := fun plan rest hin =>
    hij (h.eq_of_inside hin hj)
  cases hm with
  | waits => exact ⟨hj, rfl, rfl⟩
  | outside s stage _ _ _ _ _ hheld =>
    refine ⟨hj, put_stages_of_ne hij, ?_⟩
    have hfiles : s.files = S.files := hheld (by rw [hj]; exact nofun)
    show { (S.put i s stage).sessions j with files := s.files } = S.view j
    rw [put_sessions_of_ne hij, hfiles]
    rfl
  | takes s plan hstage hfree hlocked =>
    rw [hfree] at hj
    cases hj
  | works plan act next hstage => exact absurd hstage (houtside plan _)
  | releases plan r stage hstage hnext => exact absurd hstage (houtside plan _)

/-- A step outside of the lock, and the taking of it, leave every file but that of the lock. -/
theorem Orderly.fileAt?_of_moves (h : S.Orderly) (hm : S.Moves i T) (hi : S.holder ≠ some i)
    {p : Files.Place} (hp : p ≠ (S.sessions i).site (ops i).store.lockPath) :
    T.files.fileAt? p = S.files.fileAt? p := by
  have houtside : ∀ plan rest, S.stages i ≠ .inside plan rest := fun plan rest hin =>
    hi ((h.holder i).2 ⟨plan, rest, hin⟩)
  cases hm with
  | waits => rfl
  | outside s stage _ _ _ _ hfiles _ => exact hfiles p hp
  | takes s plan hstage hfree hlocked => exact hlocked.did.files p hp
  | works plan act next hstage => exact absurd hstage (houtside plan _)
  | releases plan r stage hstage hnext => rfl

/-- Who waits for the lock and gets it begins its section in a session in which the document is found as
before. -/
theorem Moves.takes_of_free (hm : S.Moves i T) (hfree : S.holder = none) {plan : (ops i).Plan}
    (hwaits : S.stages i = .waiting plan) (htaken : T.holder = some i) :
    T.stages i = .inside plan ((ops i).under plan) ∧
      (ops i).store.Locked { S.view i with isLockedElsewhere := false } (T.view i) := by
  have hne : S.holder ≠ some i := by rw [hfree]; exact nofun
  cases hm with
  | waits => exact absurd htaken hne
  | outside s stage => exact absurd htaken hne
  | takes s plan' hstage _ hlocked =>
    cases hwaits.symm.trans hstage
    refine ⟨stages_settled, ?_⟩
    have hview : (S.put i s (.inside plan ((ops i).under plan))).view i = s := view_put_self
    exact hview.symm ▸ hlocked
  | works plan' act next hstage => exact absurd htaken hne
  | releases plan' r stage hstage => exact absurd htaken nofun

/-- Who gets the lock has waited for it with a plan. -/
theorem Moves.exists_plan (hm : S.Moves i T) (hfree : S.holder = none) (htaken : T.holder = some i) :
    ∃ plan, S.stages i = .waiting plan := by
  have hne : S.holder ≠ some i := by rw [hfree]; exact nofun
  cases hm with
  | takes s plan hstage => exact ⟨plan, hstage⟩
  | releases plan r stage hstage => exact absurd htaken nofun
  | _ => exact absurd htaken hne

/-- A step of a member leaves the stages of the others. -/
theorem Moves.stages_of_ne (hm : S.Moves i T) (h : j ≠ i) : T.stages j = S.stages j := by
  cases hm with
  | waits => rfl
  | _ => exact Function.update_of_ne h ..

/-- Who does not want the lock any more never wants it again. -/
theorem Moves.isLate (hm : S.Moves i T) (h : (S.stages j).IsLate) : (T.stages j).IsLate := by
  by_cases hj : j = i
  · subst hj
    cases hm with
    | waits => exact h
    | outside s stage hstage =>
      rw [put_stages_self]
      obtain ⟨hearly, -⟩ | ⟨_, _, -, htold⟩ := hstage
      · cases hcurrent : S.stages j <;> rw [hcurrent] at h hearly <;> first | exact hearly.elim | exact h.elim
      · exact htold.isLate
    | takes s plan hstage =>
      rw [hstage] at h
      exact h.elim
    | works plan act next hstage =>
      rw [hstage] at h
      exact h.elim
    | releases plan r stage hstage hnext =>
      rw [hstage] at h
      exact h.elim
  · rwa [hm.stages_of_ne hj]

/-! ## Runs -/

theorem run_append (S : System ops) (steps more : List (ι × Bool)) :
    S.run (steps ++ more) = (S.run steps).run more := by
  induction steps generalizing S with
  | nil => rfl
  | cons step steps ih => exact ih _

theorem run_concat (S : System ops) (steps : List (ι × Bool)) (i : ι) (isPatient : Bool) :
    S.run (steps ++ [(i, isPatient)]) = (S.run steps).advance i isPatient :=
  S.run_append steps [(i, isPatient)]

/-- Order lasts. -/
theorem Orderly.run (h : S.Orderly) (hops : ∀ i, (ops i).Courteous) (steps : List (ι × Bool)) :
    (S.run steps).Orderly := by
  induction steps generalizing S with
  | nil => exact h
  | cons step steps ih => exact ih (h.of_moves hops (h.moves hops step.1 step.2))

theorem Orderly.directory_run (h : S.Orderly) (hops : ∀ i, (ops i).Courteous)
    (steps : List (ι × Bool)) (j : ι) :
    ((S.run steps).sessions j).directory = (S.sessions j).directory := by
  induction steps generalizing S with
  | nil => rfl
  | cons step steps ih =>
    have hm := h.moves hops step.1 step.2
    exact (ih (h.of_moves hops hm)).trans (h.directory_of_moves hm j)

/-- Who holds the lock gives it back after some steps of its own, whatever it meets. -/
theorem Orderly.exists_release (h : S.Orderly) (hops : ∀ i, (ops i).Courteous) (i : ι) :
    ∃ n, (S.run (List.replicate n (i, true))).holder ≠ some i := by
  by_cases hi : S.holder = some i
  · obtain ⟨plan, rest, hstage⟩ := (h.holder i).1 hi
    clear hi
    induction rest generalizing S with
    | finished r =>
      refine ⟨1, ?_⟩
      show (S.advance i true).holder ≠ some i
      simp [advance, hstage]
    | step act next ih =>
      have hnext : (S.advance i true).stages i =
          .inside plan (next (act.outcome (S.view i)).1) := by
        simp [advance, hstage, perform]
      obtain ⟨n, hn⟩ := ih _ (h.of_moves hops (h.moves hops i true)) hnext
      exact ⟨n + 1, hn⟩
  · exact ⟨0, hi⟩

end System
end InstanceInventory
