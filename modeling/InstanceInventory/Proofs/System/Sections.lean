import InstanceInventory.Proofs.System
import Mathlib.Data.List.Induction

/-! # Sections under the lock

* `System.Enters`: a member takes the lock in the course of a run.
* `System.Section`: it gives the lock back later, with what came of the section.
* `Orderly.section_alone`: what comes of a section, and the files after it, are what the member does
  alone from the moment when it takes the lock.
* `Orderly.accounts`: every member has gone through no section, or through the one whose outcome it
  ended with.
-/

namespace InstanceInventory.System
set_option autoImplicit false
variable {ι : Type} {ops : ι → Operation} [DecidableEq ι] {S T : System ops} {i j : ι}
  {steps more : List (ι × Bool)} {plan : (ops i).Plan} {u v : Session}
  {r : Except Fault (ops i).Outcome}

/-- In the course of a run a member that waits takes the lock, and finds itself in a session. -/
def Enters (S : System ops) (steps : List (ι × Bool)) (i : ι) (plan : (ops i).Plan) (u : Session) :
    Prop :=
  ∃ first isPatient later, steps = first ++ (i, isPatient) :: later ∧
    (S.run first).stages i = .waiting plan ∧ (S.run first).holder = none ∧
    ((S.run first).advance i isPatient).holder = some i ∧
    u = ((S.run first).advance i isPatient).view i

/-- In the course of a run a member takes the lock in a session, and gives it back in another one, with
what came of its section. -/
def Section (S : System ops) (steps : List (ι × Bool)) (i : ι) (plan : (ops i).Plan) (u : Session)
    (r : Except Fault (ops i).Outcome) (v : Session) : Prop :=
  ∃ first isPatient later, steps = first ++ (i, isPatient) :: later ∧ S.Enters first i plan u ∧
    (S.run first).stages i = .inside plan (.finished r) ∧ v = (S.run first).view i

theorem Enters.append (h : S.Enters steps i plan u) (more : List (ι × Bool)) :
    S.Enters (steps ++ more) i plan u := by
  obtain ⟨first, isPatient, later, rfl, h⟩ := h
  exact ⟨first, isPatient, later ++ more, by simp, h⟩

theorem Section.append (h : S.Section steps i plan u r v) (more : List (ι × Bool)) :
    S.Section (steps ++ more) i plan u r v := by
  obtain ⟨first, isPatient, later, rfl, h⟩ := h
  exact ⟨first, isPatient, later ++ more, by simp, h⟩

/-- Who takes the lock in a longer run takes it before the last step, or by it. -/
theorem Enters.of_concat {isPatient : Bool}
    (h : S.Enters (steps ++ [(j, isPatient)]) i plan u) :
    S.Enters steps i plan u ∨ j = i ∧ (S.run steps).holder = none ∧
      ((S.run steps).advance j isPatient).holder = some i := by
  obtain ⟨first, isPatient', later, heq, hwaits, hfree, htaken, hu⟩ := h
  rcases List.eq_nil_or_concat later with rfl | ⟨later, step, rfl⟩
  · obtain ⟨rfl, hstep⟩ := List.append_inj' heq rfl
    obtain ⟨rfl, rfl⟩ := Prod.mk.inj (List.singleton_inj.1 hstep)
    exact .inr ⟨rfl, hfree, htaken⟩
  · rw [List.concat_eq_append, ← List.cons_append, ← List.append_assoc] at heq
    obtain ⟨rfl, -⟩ := List.append_inj' heq rfl
    exact .inl ⟨first, isPatient', later, rfl, hwaits, hfree, htaken, hu⟩

/-! ### A run and its rest -/

/-- Who takes the lock in the rest of a run takes it in the run. -/
theorem Enters.after {first later : List (ι × Bool)} (h : (S.run first).Enters later i plan u) :
    S.Enters (first ++ later) i plan u := by
  obtain ⟨middle, isPatient, rest, rfl, hwaits, hfree, htaken, hu⟩ := h
  rw [← run_append] at hwaits hfree htaken hu
  exact ⟨first ++ middle, isPatient, rest, by simp, hwaits, hfree, htaken, hu⟩

/-- There is a step by which a member takes the lock. It does so in the rest of the run after any of the
steps before that. -/
theorem Enters.exists_step (h : S.Enters steps i plan u) :
    ∃ before isPatient after, steps = before ++ (i, isPatient) :: after ∧
      S.Enters (before ++ [(i, isPatient)]) i plan u ∧
      (S.run (before ++ [(i, isPatient)])).holder = some i ∧
      ∀ first middle, before = first ++ middle →
        (S.run first).Enters (middle ++ (i, isPatient) :: after) i plan u := by
  obtain ⟨before, isPatient, after, rfl, hwaits, hfree, htaken, hu⟩ := h
  refine ⟨before, isPatient, after, rfl, ⟨before, isPatient, [], rfl, hwaits, hfree, htaken, hu⟩, ?_, ?_⟩
  · rw [run_concat, htaken]
  · rintro first middle rfl
    rw [run_append] at hwaits hfree htaken hu
    exact ⟨middle, isPatient, after, rfl, hwaits, hfree, htaken, hu⟩

/-- The same of a section: it is one in the rest of the run after any of the steps before that. -/
theorem Section.exists_step (h : S.Section steps i plan u r v) :
    ∃ before isPatient after, steps = before ++ (i, isPatient) :: after ∧
      S.Enters (before ++ [(i, isPatient)]) i plan u ∧
      (S.run (before ++ [(i, isPatient)])).holder = some i ∧
      ∀ first middle, before = first ++ middle →
        (S.run first).Section (middle ++ (i, isPatient) :: after) i plan u r v := by
  obtain ⟨inside, isPatient', later, rfl, henters, hstage, hv⟩ := h
  obtain ⟨before, isPatient, after, rfl, hentered, hholder, hrest⟩ := henters.exists_step
  refine ⟨before, isPatient, after ++ (i, isPatient') :: later, by simp, hentered, hholder, ?_⟩
  rintro first middle rfl
  rw [List.append_assoc, run_append] at hstage hv
  exact ⟨middle ++ (i, isPatient) :: after, isPatient', later, by simp, hrest first middle rfl, hstage, hv⟩

/-! ## Alone under the lock -/

/-- A member that took the lock is still inside, and what is left to do comes to what the whole section
comes to alone; or it has given the lock back. -/
def Keeping (T : System ops) (i : ι) (plan : (ops i).Plan) (u : Session) : Prop :=
  (∃ rest, T.stages i = .inside plan rest ∧
    ((ops i).under plan).alone.outcome u = rest.alone.outcome (T.view i)) ∨ (T.stages i).IsLate

/-- Steps of the others change nothing under the lock, and an own step is one that the member does
alone, too. -/
theorem Orderly.keeping (h : S.Orderly) (hm : S.Moves j T) (hi : S.Keeping i plan u) :
    T.Keeping i plan u := by
  rcases hi with ⟨rest, hstage, halone⟩ | hlate
  · have hholder := (h.holder i).2 ⟨plan, rest, hstage⟩
    by_cases hj : i = j
    · subst hj
      cases hm with
      | waits => exact .inl ⟨rest, hstage, halone⟩
      | outside s stage hpath =>
        rw [hstage] at hpath
        obtain ⟨hearly, -⟩ | ⟨_, _, hleaving, -⟩ := hpath
        · exact hearly.elim
        · cases hleaving
      | takes s plan' hwaits => cases hstage.symm.trans hwaits
      | works plan' act next hworks =>
        cases hstage.symm.trans hworks
        rw [Process.outcome_alone_step] at halone
        exact .inl ⟨_, put_stages_self, halone.trans (congrArg _ view_put_self.symm)⟩
      | releases plan' r stage hreleases hnext =>
        refine .inr ?_
        rw [stages_settled]
        obtain ⟨_, -, rfl⟩ | ⟨_, -, rfl⟩ := hnext
        · trivial
        · trivial
    · obtain ⟨-, hsame, hview⟩ := h.frame hm hholder hj
      exact .inl ⟨rest, hsame.trans hstage, halone.trans (congrArg _ hview.symm)⟩
  · exact .inr (hm.isLate hlate)

/-- Who takes the lock has its whole section before it. -/
theorem Orderly.keeping_of_enters (h : S.Orderly) (hops : ∀ i, (ops i).Courteous)
    (henters : S.Enters steps i plan u) : (S.run steps).Keeping i plan u := by
  obtain ⟨first, isPatient, later, rfl, hwaits, hfree, htaken, rfl⟩ := henters
  have hfirst := h.run hops first
  have hmoves := hfirst.moves hops i isPatient
  have hafter := hfirst.of_moves hops hmoves
  have hbegin : ((S.run first).advance i isPatient).Keeping i plan
      (((S.run first).advance i isPatient).view i) :=
    .inl ⟨_, (hmoves.takes_of_free hfree hwaits htaken).1, rfl⟩
  rw [run_append]
  show (((S.run first).advance i isPatient).run later).Keeping i plan _
  generalize ((S.run first).advance i isPatient).view i = u at hbegin
  generalize (S.run first).advance i isPatient = T at hafter hbegin
  induction later generalizing T with
  | nil => exact hbegin
  | cons step later ih =>
    have hstep := hafter.moves hops step.1 step.2
    exact ih _ (hafter.of_moves hops hstep) (hafter.keeping hstep hbegin)

/-- What comes of a section, and the session after it, are what comes of it alone from the moment when
the lock is taken. -/
theorem Orderly.section_alone (h : S.Orderly) (hops : ∀ i, (ops i).Courteous)
    (hsection : S.Section steps i plan u r v) :
    ((ops i).under plan).alone.outcome u = (r, v) := by
  obtain ⟨first, isPatient, later, rfl, henters, hstage, rfl⟩ := hsection
  rcases h.keeping_of_enters hops henters with ⟨rest, hinside, halone⟩ | hlate
  · cases hstage.symm.trans hinside
    rw [halone, Process.outcome_alone_finished]
  · rw [hstage] at hlate
    exact hlate.elim

/-- The session in which a member takes the lock is one in which the document is found as it stands
then. -/
theorem Orderly.locked_of_enters (h : S.Orderly) (hops : ∀ i, (ops i).Courteous)
    (henters : S.Enters steps i plan u) :
    ∃ first, first <+: steps ∧ (S.run first).holder = none ∧
      (ops i).store.Locked { (S.run first).view i with isLockedElsewhere := false } u := by
  obtain ⟨first, isPatient, later, rfl, hwaits, hfree, htaken, rfl⟩ := henters
  exact ⟨first, List.prefix_append .., hfree,
    (((h.run hops first).moves hops i isPatient).takes_of_free hfree hwaits htaken).2⟩

/-! ## What becomes of a member -/

/-- What a member has gone through at the end of a run, by the stage that it has come to: no section
under the lock, the beginning of one, or one with the outcome that the member ends with, unless the
console refuses to tell about it. -/
inductive Account (S : System ops) (steps : List (ι × Bool)) (i : ι) : Stage (ops i) → Prop
  | early {stage : Stage (ops i)} (hstage : stage.IsEarly)
    (hnever : ∀ plan u, ¬ S.Enters steps i plan u) : Account S steps i stage
  | inside {plan : (ops i).Plan} {rest : Process (ops i).Outcome} {u : Session}
    (henters : S.Enters steps i plan u) : Account S steps i (.inside plan rest)
  | leaving {plan : (ops i).Plan} {outcome : (ops i).Outcome} {u v : Session}
    (hsection : S.Section steps i plan u (.ok outcome) v) : Account S steps i (.leaving plan outcome)
  | never {r : Except Fault Unit} (hnever : ∀ plan u, ¬ S.Enters steps i plan u) :
    Account S steps i (.ended r)
  | ended {plan : (ops i).Plan} {r : Except Fault (ops i).Outcome} {u v : Session}
    (hsection : S.Section steps i plan u r v) : Account S steps i (.ended (r.map fun _ => ()))
  /-- The console refused what was to be said of the section. -/
  | untold {plan : (ops i).Plan} {outcome : (ops i).Outcome} {u v : Session} {f : Fault}
    (hsection : S.Section steps i plan u (.ok outcome) v) (hf : f.IsOfConsole) :
    Account S steps i (.ended (.error f))

/-- What a member has gone through stays so in the course of steps by which it does not take the
lock. -/
theorem Account.append {stage : Stage (ops i)} (h : S.Account steps i stage)
    (hback : ∀ plan u, S.Enters (steps ++ more) i plan u → S.Enters steps i plan u) :
    S.Account (steps ++ more) i stage := by
  have hnever : (∀ plan u, ¬ S.Enters steps i plan u) →
      ∀ plan u, ¬ S.Enters (steps ++ more) i plan u :=
    fun h plan u henters => h plan u (hback plan u henters)
  cases h with
  | early hstage h => exact .early hstage (hnever h)
  | inside henters => exact .inside (henters.append more)
  | leaving hsection => exact .leaving (hsection.append more)
  | never h => exact .never (hnever h)
  | ended hsection => exact .ended (hsection.append more)
  | untold hsection hf => exact .untold (hsection.append more) hf

/-- What a member has gone through after a step of its own. -/
theorem Orderly.account_concat (h : S.Orderly) (hops : ∀ i, (ops i).Courteous)
    (steps : List (ι × Bool)) (i : ι) (isPatient : Bool)
    (ih : S.Account steps i ((S.run steps).stages i)) :
    S.Account (steps ++ [(i, isPatient)]) i (((S.run steps).advance i isPatient).stages i) := by
  have hmoves := (h.run hops steps).moves hops i isPatient
  generalize hT : (S.run steps).advance i isPatient = T at hmoves
  -- Unless the step gives the member the lock, it took it in the steps before if at all.
  have hback : T.holder = (S.run steps).holder ∨ T.holder ≠ some i → ∀ plan u,
      S.Enters (steps ++ [(i, isPatient)]) i plan u → S.Enters steps i plan u := by
    intro hholder plan u henters
    refine henters.of_concat.resolve_right fun ⟨_, hfree, htaken⟩ => ?_
    rw [hT] at htaken
    rcases hholder with hsame | hne
    · cases htaken.symm.trans (hsame.trans hfree)
    · exact hne htaken
  generalize hcurrent : (S.run steps).stages i = current at ih
  cases hmoves with
  | waits => exact hcurrent ▸ ih.append (hback (.inl rfl))
  | outside s stage hstage =>
    have hback := hback (.inl rfl)
    rw [put_stages_self]
    obtain ⟨hearly, hnext⟩ | ⟨plan, outcome, hleaving, htold⟩ := hstage
    · have hnever : ∀ plan u, ¬ S.Enters steps i plan u := by
        rw [hcurrent] at hearly
        cases ih with
        | early _ hnever => exact hnever
        | _ => exact hearly.elim
      have hnever' : ∀ plan u, ¬ S.Enters (steps ++ [(i, isPatient)]) i plan u :=
        fun plan u henters => hnever plan u (hback plan u henters)
      obtain hearly | ⟨r, rfl⟩ := hnext
      · exact .early hearly hnever'
      · exact .never hnever'
    · obtain rfl := hcurrent.symm.trans hleaving
      cases ih with
      | early hearly => exact hearly.elim
      | leaving hsection =>
        match stage, htold with
        | .ended (.ok _), _ => exact .ended (hsection.append _)
        | .ended (.error f), hf => exact .untold (hsection.append _) hf
  | takes s plan hwaits hfree hlocked =>
    have htaken : S.Enters (steps ++ [(i, isPatient)]) i plan
        (((S.run steps).advance i isPatient).view i) :=
      ⟨steps, isPatient, [], rfl, hwaits, hfree, by rw [hT], rfl⟩
    rw [stages_settled]
    exact .inside htaken
  | works plan act next hstage =>
    obtain rfl := hcurrent.symm.trans hstage
    rw [perform, put_stages_self]
    cases ih with
    | inside henters => exact .inside (henters.append _)
    | early hearly => exact hearly.elim
  | releases plan r stage hstage hnext =>
    obtain rfl := hcurrent.symm.trans hstage
    have hsection : ∀ u, S.Enters steps i plan u → S.Section (steps ++ [(i, isPatient)]) i plan u
        r ((S.run steps).view i) := fun u henters =>
      ⟨steps, isPatient, [], rfl, henters, hstage, rfl⟩
    cases ih with
    | inside henters =>
      rw [stages_settled]
      obtain ⟨outcome, rfl, rfl⟩ | ⟨f, rfl, rfl⟩ := hnext
      · exact .leaving (hsection _ henters)
      · exact .ended (hsection _ henters)
    | early hearly => exact hearly.elim

/-- Every member has gone through no section, or through the one whose outcome it ends with, unless the
console refuses to tell about it. -/
theorem Orderly.account (h : S.Orderly) (hops : ∀ i, (ops i).Courteous)
    (hstart : ∀ i, (S.stages i).IsEarly) (steps : List (ι × Bool)) (i : ι) :
    S.Account steps i ((S.run steps).stages i) := by
  induction steps using List.reverseRecOn with
  | nil => exact .early (hstart i) fun _ _ ⟨_, _, _, heq, _⟩ => absurd heq.symm (by simp)
  | append_singleton steps step ih =>
    obtain ⟨j, isPatient⟩ := step
    rw [run_concat]
    by_cases hj : i = j
    · subst hj
      exact h.account_concat hops steps i isPatient ih
    · rw [((h.run hops steps).moves hops j isPatient).stages_of_ne hj]
      exact ih.append fun plan u henters =>
        henters.of_concat.resolve_right fun h => hj h.1.symm

end InstanceInventory.System
