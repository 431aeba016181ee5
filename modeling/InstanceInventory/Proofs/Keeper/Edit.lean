import InstanceInventory.Proofs.Keeper.Add
import InstanceInventory.Proofs.Keeper.TakeOut
import InstanceInventory.Proofs.Operation

/-! # Edits of the document

* `Edit`: the three operations that write the document, with what they are given.
* `Edit.Ends`: how an edit may end, by the sessions that it went through.
* `Edit.run_ends`: every edit ends in one of these ways.
-/

namespace InstanceInventory
set_option autoImplicit false
open InstanceInventory.Action (Frame Keeps Meets keeps_bind keeps_pure meets_bind meets_pure
  still_then still_last)
open Session (Did Still Calm Follows)

/-- An operation that writes the document, with what it is given. -/
inductive Edit where
  | create
  | importInstance (id : String) (assumeYes : Bool)
  | remove (key : String) (forget : Bool)

/-- A session at the beginning of an operation. -/
def Session.begun (s : Session) : Session :=
  { s with progress := {} }

namespace Keeper
variable {k : Keeper} {s s' : Session}

/-! ## Before the lock is taken -/

theorem introduceCreation_meets (k : Keeper) (text : String) (s : Session) :
    (k.introduceCreation text).alone.Meets s (fun _ => Still s) fun _ => Still s := by
  have hkeeps : (k.introduceCreation text).alone.Keeps Still fun _ => True := by
    have hstatus : ∀ text, (Action.status text).Keeps Still fun _ => True :=
      fun _ => Action.keeps_status _
    unfold introduceCreation
    simp only [Process.alone_bind, Process.alone_lift, Process.alone_ite]
    refine keeps_bind ((Action.keeps_read _).imp fun _ _ => trivial) fun present => ?_
    split
    · exact keeps_bind (hstatus _) fun _ => keeps_bind (Action.keeps_say _) fun _ =>
        keeps_bind (Document.keeps_keysOf text).any fun keys =>
          (keeps_showKeys keys _).any
    · exact hstatus _
  exact (hkeeps s).imp_bad fun _ _ h => h.1

/-- What is asked for is found out after the document was read. One that is broken is reported. -/
theorem gather_meets (k : Keeper) (s : Session) :
    k.gather.alone.Meets s
      (fun
        | none => k.store.Declined s.begun
        | some _ => fun s' => ∃ text, k.store.Looked s.disturbed text s.begun s' ∧
            ¬ Document.Broken text)
      fun f => k.store.Stopped s.disturbed f s.begun := by
  unfold gather Action.begin
  simp only [Process.alone_bind, Process.alone_lift, Process.alone_ite, Process.alone_pure]
  rw [meets_bind, Action.meets_modify]
  refine still_then (Action.keeps_displayAll _) fun _ s₁ h₁ => ?_
  refine (k.store.readText_meets s₁).imp_bad (fun f t ht => .unread (ht.1 ▸ h₁)) |>.bind
    fun text s₂ ⟨h₂, _, hshows⟩ => ?_
  have hlooked : k.store.Looked s.begun.disturbed text s.begun s₂ :=
    ⟨(h₁.then_did h₂).mono (Set.empty_subset _), s₁, h₁, hshows⟩
  refine (Document.demandMap_meets text s₂).imp_bad (fun f t ht =>
    .looked text (hlooked.then_still ht.1) ht.2.1) |>.bind fun _ s₃ ⟨h₃, hwhole⟩ => ?_
  refine (k.introduceCreation_meets text s₃).imp_bad (fun f t ht =>
    (hlooked.then_still h₃).stopped hwhole ht) |>.bind fun _ s₄ h₄ => ?_
  have hread := (hlooked.then_still h₃).then_still h₄
  have hstop : ∀ {f t}, Calm s₄ t → f.IsMild → k.store.Stopped s.disturbed f s.begun t :=
    fun ht _ => (hread.then_calm ht).stopped hwhole (Frame.refl _)
  have hname : Prompt.name.Keeps Calm Fault.IsMild := Prompt.keeps_name
  refine hname.bind_meets (fun f t ht => hstop ht) fun name s₅ h₅ => ?_
  refine still_then (Action.keeps_status _) fun _ s₆ h₆ => ?_
  have hasked := (hread.then_calm h₅).then_still h₆
  refine (Document.keysOf_meets text s₆).imp_bad (fun f t ht => hasked.stopped hwhole ht.1) |>.bind
    fun keys s₇ ⟨h₇, _⟩ => ?_
  have hasked := hasked.then_still h₇
  split
  · exact (refuseDuplicate_meets text _ s₇).imp_bad fun f t ht => hasked.stopped hwhole ht
  · have hcollect : (Prompt.collectRecord k.settings k.client name).Keeps Calm Fault.IsMild :=
      Prompt.keeps_collectRecord _ _ _
    have hvalidate : ∀ d : Draft, (Action.ofExcept d.validate).Keeps Calm Fault.IsMild :=
      fun d => d.keeps_validate
    have hshow : ∀ d title, (Prompt.showSummary d title).Keeps Calm Fault.IsMild :=
      fun _ _ => Prompt.keeps_showSummary _ _
    have hconfirm : ∀ question, (Prompt.confirm question false).Keeps Calm Fault.IsMild :=
      fun _ => Prompt.keeps_confirm _ _
    have hstop : ∀ {f t}, Calm s₇ t → f.IsMild → k.store.Stopped s.disturbed f s.begun t :=
      fun ht _ => (hasked.then_calm ht).stopped hwhole (Frame.refl _)
    refine hcollect.bind_meets (fun f t ht => hstop ht) fun d s₈ h₈ =>
      (hvalidate d).bind_meets (fun f t ht => hstop (Frame.trans h₈ ht)) fun _ s₉ h₉ =>
      (hshow d _).bind_meets (fun f t ht => hstop (Frame.trans (Frame.trans h₈ h₉) ht))
        fun _ s₁₀ h₁₀ => ?_
    have h₇₁₀ := Frame.trans (Frame.trans h₈ h₉) h₁₀
    refine (hconfirm _).bind_meets (fun f t ht => hstop (Frame.trans h₇₁₀ ht))
      fun confirmed s₁₁ h₁₁ => ?_
    have hlast := hasked.then_calm (Frame.trans h₇₁₀ h₁₁)
    split
    · exact (meets_pure _).2 ⟨text, hlast, hwhole⟩
    · exact (hlast.cancel_meets hwhole _).bind fun _ t ht => (meets_pure _).2 ht

theorem fetch_meets (k : Keeper) (id : String) (s : Session) :
    (k.fetch id).Meets s (fun _ => Still s.begun) fun f s' => Still s.begun s' ∧ f.IsMild := by
  have hstatus : ∀ text, (Action.status text).Keeps Still Fault.IsMild :=
    fun _ => Action.keeps_status _
  unfold fetch Action.begin
  rw [meets_bind, Action.meets_modify]
  dsimp only
  split
  · exact meets_bind.2 ((Action.meets_fail _ _).2 ⟨Frame.refl _, trivial⟩)
  · refine (?_ : Keeps Still Fault.IsMild _) s.begun
    exact keeps_bind (Action.keeps_displayAll _) fun _ =>
      keeps_bind (hstatus _) fun _ => keeps_bind (hstatus _) fun _ =>
      keeps_bind (k.keeps_fetchDraft id) fun d => keeps_bind (Action.keeps_ofShape _) fun key =>
      keeps_bind (Action.keeps_step _ _ _) fun _ =>
      keeps_bind (Prompt.keeps_showSummary d _) fun _ => keeps_pure _

theorem introduceRemoval_meets (key : String) (s : Session) :
    (introduceRemoval key).Meets s (fun _ => Still s.begun)
      fun f s' => Still s.begun s' ∧ key = "" ∧ f = .plain .usage "A resource name is required" := by
  unfold introduceRemoval Action.begin
  rw [meets_bind, Action.meets_modify]
  dsimp only
  split
  · next hkey =>
    exact meets_bind.2 ((Action.meets_fail _ _).2
      ⟨Frame.refl _, String.isEmpty_iff.1 hkey, rfl⟩)
  · exact still_then (Action.keeps_displayAll _) fun _ _ h =>
      still_last (Action.keeps_status _) fun _ _ h' => Frame.trans h h'

end Keeper

namespace Edit
variable {k : Keeper} {e : Edit} {s s' t : Session}

def operation (k : Keeper) : Edit → Operation
  | create => k.creation
  | importInstance id assumeYes => k.importing id assumeYes
  | remove key forget => k.removal key forget

/-- An edit, where nobody else is at work. -/
def run (k : Keeper) (e : Edit) : Action Unit :=
  (e.operation k).alone

/-- What an edit that starts in a session is to do to the document. -/
def Asks (k : Keeper) (s : Session) : Edit → Change → Prop
  | create, c => ∃ d key block t, k.gather.alone.outcome s = (.ok (some (d, key)), t) ∧
      d.block Record.blockLevel = .ok block ∧ c = { added := some (key, block) }
  | importInstance id _, c => ∃ d key block t, (k.fetch id).outcome s = (.ok (d, key), t) ∧
      d.block Record.blockLevel = .ok block ∧ c = ⟨some key, some (key, block)⟩
  | remove key _, c => c = { target := some key }

/-- The keys that a document must hold or not hold for an edit to write it. -/
def Admits (c : Change) (keys : List String) : Edit → Prop
  | create => ∀ key block, c.added = some (key, block) → key ∉ keys
  | importInstance .. => True
  | remove key _ => key ∈ keys

/-- The order in which Terraform is run once a change is written, for the address of the key that was
cut out. Creating an instance runs nothing. -/
def rule (c : Change) : Edit → Deed → List Deed → Prop
  | create => fun _ _ => False
  | importInstance id _ => Keeper.importRule (Record.addressOf (c.target.getD "")) id
  | remove _ forget => Keeper.removeRule (Record.addressOf (c.target.getD "")) forget

/-- The section of an edit under the lock may begin: the document was at most read before, and was
not broken then. -/
structure Entered (k : Keeper) (looks : List Deed) (s t : Session) : Prop where
  did : Did (s.disturbed ∪ {s.site k.store.lockPath}) looks s.begun t
  looks : ∀ d ∈ looks, ∃ text, d = .read text ∧ ¬ Document.Broken text ∧
    (text = "" ∨ k.store.text? s = some text)

/-- How an edit that was entered may go on: the operator gives up, there is a fault before the
document is written, the document is written and Terraform run after that, or it is then written
back. -/
inductive Goes (k : Keeper) (e : Edit) (s t : Session) : Except Fault Unit → Session → Prop
  | declined {s' : Session} (h : k.store.Declined t s') : Goes k e s t (.ok ()) s'
  | stopped {f : Fault} {s' : Session} (h : k.store.Stopped t.disturbed f t s') : Goes k e s t (.error f) s'
  | written {r : Except Fault Unit} {s' : Session} (c : Change) (w : Rewrite)
    (copy : Option Files.Path) (u : Session) (hasks : e.Asks k s c) (hlock : k.store.Reaches t)
    (hadmits : e.Admits c w.keys) (hfits : w.Fits (Keeper.documentOptions k.settings) c)
    (hwritten : k.store.Rewritten t.disturbed w copy t u) (hruns : Follows (e.rule c) u s') :
    Goes k e s t r s'
  | takenBack {f : Fault} {s' : Session} (key : String) (forget : Bool) (w : Rewrite)
    (copy : Files.Path) (u v : Session) (text : String) (he : e = .remove key forget)
    (hlock : k.store.Reaches t) (hkey : key ∈ w.keys)
    (hfits : w.Fits (Keeper.documentOptions k.settings) { target := some key })
    (hwritten : k.store.Rewritten ∅ w (some copy) t u)
    (hruns : Follows (e.rule { target := some key }) u v)
    (hcopy : v.files.readText (v.locate copy) = .ok text) (hback : k.store.Writes text v s') :
    Goes k e s t (.error f) s'

/-- How an edit may end. -/
def Ends (k : Keeper) (e : Edit) (s : Session) (r : Except Fault Unit) (s' : Session) : Prop :=
  ∃ looks t, Entered k looks s t ∧ e.Goes k s t r s'

theorem Goes.then_still {r : Except Fault Unit} {s'' : Session} (h : e.Goes k s t r s') (hs : Still s' s'') :
    e.Goes k s t r s'' := by
  cases h with
  | declined h => exact .declined (h.then_still hs)
  | stopped h => exact .stopped (h.then_still hs)
  | written c w copy u hasks hlock hadmits hfits hwritten hruns =>
    exact .written c w copy u hasks hlock hadmits hfits hwritten (hruns.then_still hs)
  | takenBack key forget w copy u v text he hlock hkey hfits hwritten hruns hcopy hback =>
    exact .takenBack key forget w copy u v text he hlock hkey hfits hwritten hruns hcopy
      (hback.then_still hs)

theorem Ends.then_still {r : Except Fault Unit} {s'' : Session} (h : e.Ends k s r s')
    (hs : Still s' s'') : e.Ends k s r s'' :=
  let ⟨looks, t, hentered, hgoes⟩ := h
  ⟨looks, t, hentered, hgoes.then_still hs⟩

/-! ### How an edit is entered -/

theorem entered_of_still (h : Still s.begun t) : Entered k [] s t :=
  ⟨h.mono (Set.empty_subset _), fun _ h => nomatch h⟩

theorem entered_of_looked {text : String} (h : k.store.Looked s.disturbed text s.begun t)
    (hwhole : ¬ Document.Broken text) : Entered k [.read text] s t :=
  ⟨h.did.mono Set.subset_union_left, fun _ hd =>
    ⟨text, List.mem_singleton.1 hd, hwhole, h.text_eq⟩⟩

/-- The lock is at most taken. -/
theorem Entered.then_lock {looks : List Deed} {u : Session} (h : Entered k looks s t)
    (hlock : Did {t.site k.store.lockPath} [] t u) : Entered k looks s u := by
  have hsite : t.site k.store.lockPath = s.site k.store.lockPath := h.did.site _
  refine ⟨(h.did.trans hlock).mono (Set.union_subset (subset_refl _) ?_), h.looks⟩
  rw [hsite]
  exact Set.subset_union_right

/-- What is done under the lock decides how an edit goes on. -/
theorem under_meets {looks : List Deed} {u : Session} {α : Type} {under : Action α}
    {after : α → Action Unit} {ok : α → Session → Prop} {bad : Fault → Session → Prop}
    {kind : Fault → Prop} (h : Entered k looks s t) (hlock : k.store.Locked t u)
    (hunder : under.Meets u ok bad)
    (hok : ∀ a v, ok a v → e.Goes k s u (.ok ()) v)
    (hbad : ∀ f v, bad f v → e.Goes k s u (.error f) v)
    (hafter : ∀ a, (after a).Keeps Still kind)
    (huntold : ∀ a f v, ok a v → kind f → e.Goes k s u (.error f) v) :
    under.Meets u
      (fun a v => (after a).Meets { v with holdsLock := false } (fun _ => e.Ends k s (.ok ()))
        fun f => e.Ends k s (.error f))
      fun f v => e.Ends k s (.error f) { v with holdsLock := false } := by
  have hentered := h.then_lock hlock.did
  have hends : ∀ {r v}, e.Goes k s u r v → e.Ends k s r { v with holdsLock := false } :=
    fun hgoes => ⟨looks, u, hentered, hgoes.then_still (Store.still_released _)⟩
  refine hunder.imp (fun a v hv => (hafter a).meets (fun _ x hx => ?_) fun f x hx hf => ?_)
    fun f v hv => hends (hbad f v hv)
  · exact (hends (hok a v hv)).then_still hx
  · exact (hends (huntold a f v hv hf)).then_still hx

/-! ### The ways in which an edit ends -/

theorem create_ends (k : Keeper) (s : Session) :
    (k.create).Meets s (fun _ => create.Ends k s (.ok ())) fun f => create.Ends k s (.error f) := by
  have hstart : Entered k [] s s.begun := entered_of_still (Frame.refl _)
  refine Operation.alone_meets (((k.gather_meets s).and (Action.meets_outcome _ s)).imp_bad
    fun f t ht => ⟨[], _, hstart, .stopped ht.1⟩) (fun t ht => ⟨[], _, hstart, .declined ht.1⟩) ?_ ?_
  · intro p t f u ht hu _
    obtain ⟨text, hlooked, hwhole⟩ := ht.1
    exact ⟨_, u, (entered_of_looked hlooked hwhole).then_lock hu, .stopped (.unread (Frame.refl u))⟩
  · intro ⟨d, key⟩ t u ht hu
    obtain ⟨text, hlooked, hwhole⟩ := ht.1
    refine under_meets (entered_of_looked hlooked hwhole) hu (k.add_meets d key u) ?_
      (fun f v hv => .stopped hv) ?_ fun _ _ _ _ (hf : False) => hf.elim
    · intro held v hv
      cases held with
      | none => exact .declined hv
      | some keys =>
        obtain ⟨w, copy, block, hblock, hkeys, hfresh, hfits, hwritten⟩ := hv
        refine .written _ w copy v ⟨d, key, block, t, ht.2, hblock, rfl⟩ hu.reaches ?_ hfits hwritten
          (.refl _ v)
        rintro _ _ ⟨⟩
        rwa [hkeys]
    · intro held
      cases held with
      | none => exact keeps_pure _
      | some keys => exact k.keeps_reportCreation d key keys

theorem import_ends (k : Keeper) (id : String) (assumeYes : Bool) (s : Session) :
    (k.importInstance id assumeYes).Meets s
      (fun _ => (importInstance id assumeYes).Ends k s (.ok ()))
      fun f => (importInstance id assumeYes).Ends k s (.error f) := by
  have hfetched : (some <$> (k.fetch id : Process (Draft × String))).alone.Meets s
      (fun p t => ∃ d, p = some d ∧ Still s.begun t ∧ (k.fetch id).outcome s = (.ok d, t))
      fun f t => (importInstance id assumeYes).Ends k s (.error f) t := by
    rw [Process.alone_map, Process.alone_lift, Action.meets_map]
    exact ((k.fetch_meets id s).and (Action.meets_outcome _ s)).imp
      (fun d t ht => ⟨d, rfl, ht⟩) fun f t ht =>
        ⟨[], _, entered_of_still (Frame.refl _), .stopped (.unread ht.1.1)⟩
  refine Operation.alone_meets hfetched (fun t ⟨_, h, _⟩ => nomatch h) ?_ ?_
  · rintro p t f u ⟨d, -, ht, -⟩ hu -
    exact ⟨_, u, (entered_of_still ht).then_lock hu, .stopped (.unread (Frame.refl u))⟩
  · rintro _ t u ⟨⟨d, key⟩, ⟨⟩, ht, houtcome⟩ hu
    have hplaced : ∀ {r v}, k.Places d key id u v → (importInstance id assumeYes).Goes k s u r v :=
      fun ⟨w, copy, block, x, hblock, hfits, hwritten, hruns⟩ =>
        .written _ w copy x ⟨d, key, block, t, houtcome, hblock, rfl⟩ hu.reaches trivial hfits
          hwritten hruns
    refine under_meets (entered_of_still ht) hu (k.place_meets d key id assumeYes u) ?_
      (fun f v hv => hv.elim .stopped hplaced) ?_ fun _ _ _ _ (hf : False) => hf.elim
    · intro isPlaced v hv
      cases isPlaced with
      | false => exact .declined hv
      | true => exact hplaced hv
    · intro isPlaced
      cases isPlaced with
      | false => exact keeps_pure _
      | true => exact Action.keeps_success _

theorem remove_ends (k : Keeper) (key : String) (forget : Bool) (s : Session) :
    (k.remove key forget).Meets s (fun _ => (remove key forget).Ends k s (.ok ()))
      fun f => (remove key forget).Ends k s (.error f) := by
  have hintroduced : (some <$> (Keeper.introduceRemoval key : Process Unit)).alone.Meets s
      (fun p t => p = some () ∧ Still s.begun t)
      fun f t => (remove key forget).Ends k s (.error f) t := by
    rw [Process.alone_map, Process.alone_lift, Action.meets_map]
    exact (Keeper.introduceRemoval_meets key s).imp (fun _ t ht => ⟨rfl, ht⟩) fun f t ht =>
      ⟨[], _, entered_of_still (Frame.refl _), .stopped (.unread ht.1)⟩
  refine Operation.alone_meets hintroduced (fun t ⟨h, _⟩ => nomatch h) ?_ ?_
  · rintro p t f u ⟨-, ht⟩ hu -
    exact ⟨_, u, (entered_of_still ht).then_lock hu, .stopped (.unread (Frame.refl u))⟩
  · rintro p t u ⟨-, ht⟩ hu
    have hsub : ∅ ⊆ u.disturbed := Set.empty_subset _
    have hremoved : ∀ {r v rest}, k.Removes key forget rest u v →
        (remove key forget).Goes k s u r v :=
      fun ⟨w, copy, x, hkey, _, hfits, hwritten, hruns⟩ =>
        .written _ w copy x rfl hu.reaches hkey hfits (hwritten.mono hsub) hruns
    refine under_meets (entered_of_still ht) hu (k.takeOut_meets key forget u)
      (fun rest v hv => hremoved hv) ?_ (fun rest => k.keeps_reportRemoval forget rest)
      fun rest f v hv _ => hremoved hv
    rintro f v (⟨-, hv⟩ | ⟨-, rest, hv⟩ | hv)
    · exact .stopped (hv.mono hsub)
    · exact hremoved hv
    · obtain ⟨w, copy, x, y, text, wording, hkey, hfits, hwritten, hruns, hcopy, hback, rfl⟩ := hv
      exact .takenBack key forget w copy x y text rfl hu.reaches hkey hfits hwritten hruns hcopy
        hback

/-- Every edit ends in one of these ways. -/
theorem run_ends (k : Keeper) (e : Edit) (s : Session) :
    (e.run k).Meets s (fun _ => e.Ends k s (.ok ())) fun f => e.Ends k s (.error f) := by
  cases e with
  | create => exact create_ends k s
  | importInstance id assumeYes => exact import_ends k id assumeYes s
  | remove key forget => exact remove_ends k key forget s

end Edit
end InstanceInventory
