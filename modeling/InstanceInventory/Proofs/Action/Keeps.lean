import InstanceInventory.Proofs.Action.Meets

/-! # What actions leave as it is

* `Action.Frame`: a relation between sessions that what is told and noted does not break; its
  extensions add requests, runs of Terraform and questions.
* `Fault.IsMild`, `Fault.IsOfDocument`, `Fault.IsOfConsole`, `Fault.IsAccess`: a fault that says
  nothing about an edit, one that finds the document wanting, one with which the console refuses a text,
  and one of the use of files.
* `Action.Keeps`: however an action ends, the session after it stands in a relation to the one
  before, and a fault is of a kind.
-/

namespace InstanceInventory
set_option autoImplicit false

namespace Fault

/-- A fault that finds the document wanting: it cannot be read, or does not hold what it should. -/
def IsOfDocument : Fault → Prop
  | .report (.plain .unbalancedDocument _) | .report (.plain .documentInvariant _)
  | .malformedLiteral _ | .noSuchCharacter _ => True
  | _ => False

/-- A fault of the operator, the console, the provider or a value: it does not say how an edit went,
does not find the document wanting, and is not one of the use of files or the lock. -/
def IsMild : Fault → Prop
  | .report (.duplicateRecord ..) | .report (.recordNotFound ..) | .report (.terraform ..)
  | .report (.postWrite ..) | .report (.plain .unbalancedDocument _)
  | .report (.plain .documentInvariant _) | .report (.plain .lockTimeout _) | .file _
  | .malformedLiteral _ | .noSuchCharacter _ => False
  | .report (.plain .general wording) =>
    ∃ label, wording = "Could not determine AMI ID for " ++ label
  | _ => True

/-- A fault with which the console refuses a text. -/
def IsOfConsole (f : Fault) : Prop :=
  f = .unmatchedMark

theorem IsOfConsole.mild {f : Fault} (h : f.IsOfConsole) : f.IsMild := by
  rw [h]
  trivial

/-- A fault with which the use of files ends early. -/
def IsAccess : Fault → Prop
  | .file _ | .report (.plain .general _) => True
  | _ => False

end Fault

namespace Action
variable {α β σ : Type} {rel : Session → Session → Prop} {kind : Fault → Prop}

/-- A relation between sessions that the operator's screen and the notes on the steps of an operation
do not matter for. -/
class Frame (rel : Session → Session → Prop) : Prop where
  refl : ∀ s, rel s s
  trans : ∀ {s t u}, rel s t → rel t u → rel s u
  shown : ∀ s items, rel s { s with shown := items }
  steps : ∀ s steps, rel s { s with progress := { s.progress with steps } }

/-- A frame that requests to the provider and the waiting for it do not matter for. -/
class Frame.Requests (rel : Session → Session → Prop) : Prop extends Frame rel where
  request : ∀ s provider r, rel s { s with provider, made := .request r :: s.made }
  waited : ∀ s ns, rel s { s with waited := ns }

/-- A frame that attempts of requests, as they are drawn from the provider's script, and the waiting
between them do not matter for. -/
class Frame.Draws (rel : Session → Session → Prop) : Prop extends Frame rel where
  draw : ∀ (s : Session) (r : Cloud.Request), rel s { s with
    provider := ((s.provider.next? (r.operation, r.isPaged)).getD (.bare r, s.provider)).2
    made := .request r :: s.made }
  waited : ∀ s ns, rel s { s with waited := ns }

instance {rel : Session → Session → Prop} [Frame.Requests rel] : Frame.Draws rel where
  draw s r := Frame.Requests.request s _ r
  waited := Frame.Requests.waited

/-- A frame that the notes on what was done with the document and by Terraform do not matter for. -/
class Frame.Deeds (rel : Session → Session → Prop) : Prop extends Frame rel where
  did : ∀ s d, rel s { s with deeds := d :: s.deeds }

/-- A frame that runs of Terraform do not matter for. -/
class Frame.Runs (rel : Session → Session → Prop) : Prop extends Frame.Deeds rel where
  run : ∀ s provisioner words directory,
    rel s { s with provisioner, made := .run words directory :: s.made }

/-- A frame that the notes on an operation as a whole do not matter for. -/
class Frame.Marks (rel : Session → Session → Prop) : Prop extends Frame rel where
  progress : ∀ s progress, rel s { s with progress }

/-- A frame that questions, and what others do meanwhile, do not matter for. -/
class Frame.Answers (rel : Session → Session → Prop) : Prop extends Frame rel where
  answer : ∀ (s : Session) a as, s.answers = a :: as →
    rel s { s with answers := as, files := a.meanwhile s.files }

/-- However an action ends, the session after it stands in a relation to the one before, and a fault
is of a kind. -/
def Keeps (rel : Session → Session → Prop) (kind : Fault → Prop) (act : Action α) : Prop :=
  ∀ s, act.Meets s (fun _ s' => rel s s') fun f s' => rel s s' ∧ kind f

/-! ## Rules -/

theorem Keeps.imp {act : Action α} {kind' : Fault → Prop} (h : act.Keeps rel kind)
    (hk : ∀ f, kind f → kind' f) : act.Keeps rel kind' :=
  fun s => (h s).imp (fun _ _ => id) fun _ _ hf => ⟨hf.1, hk _ hf.2⟩

/-- The kind of the faults is left open. -/
theorem Keeps.any {act : Action α} (h : act.Keeps rel kind) : act.Keeps rel fun _ => True :=
  h.imp fun _ _ => trivial

theorem Keeps.outcome {act : Action α} (h : act.Keeps rel kind) (s : Session) :
    rel s (act.outcome s).2 :=
  Meets.outcome (P := fun _ => rel s) ((h s).imp (fun _ _ => id) fun _ _ hf => hf.1)

theorem Keeps.meets {act : Action α} (h : act.Keeps rel kind) {s : Session}
    {ok : α → Session → Prop} {bad : Fault → Session → Prop}
    (hok : ∀ a s', rel s s' → ok a s') (hbad : ∀ f s', rel s s' → kind f → bad f s') :
    act.Meets s ok bad :=
  (h s).imp hok fun f s' hf => hbad f s' hf.1 hf.2

/-- What follows an action that keeps a relation starts from a session in that relation. -/
theorem Keeps.bind_meets {x : Action β} {f : β → Action α} (hx : x.Keeps rel kind) {s : Session}
    {ok : α → Session → Prop} {bad : Fault → Session → Prop}
    (hbad : ∀ f s', rel s s' → kind f → bad f s')
    (hf : ∀ b s', rel s s' → (f b).Meets s' ok bad) : (x >>= f).Meets s ok bad :=
  meets_bind.2 (hx.meets hf hbad)

/-- The same for an action that does not end early. -/
theorem Keeps.then_meets {x : Action β} {f : β → Action α}
    (hx : x.Keeps rel fun _ => False) {s : Session}
    {ok : α → Session → Prop} {bad : Fault → Session → Prop}
    (hf : ∀ b s', rel s s' → (f b).Meets s' ok bad) : (x >>= f).Meets s ok bad :=
  hx.bind_meets (fun _ _ _ h => h.elim) hf

section
variable [Frame rel]

@[grind ←] theorem keeps_pure (a : α) : (pure a : Action α).Keeps rel kind :=
  fun s => (meets_pure a).2 (Frame.refl s)

theorem keeps_throw {f : Fault} (h : kind f) : (throw f : Action α).Keeps rel kind :=
  fun s => (meets_throw f).2 ⟨Frame.refl s, h⟩

@[grind ←] theorem keeps_bind {x : Action β} {f : β → Action α} (hx : x.Keeps rel kind)
    (hf : ∀ b, (f b).Keeps rel kind) : (x >>= f).Keeps rel kind := fun s =>
  meets_bind.2 <| (hx s).imp
    (fun b s' h => (hf b s').imp (fun _ _ h' => Frame.trans h h')
      fun _ _ h' => ⟨Frame.trans h h'.1, h'.2⟩)
    fun _ _ h => h

@[grind ←] theorem keeps_map {x : Action β} {f : β → α} (hx : x.Keeps rel kind) :
    (f <$> x).Keeps rel kind :=
  keeps_bind hx fun _ => keeps_pure _

theorem keeps_recover {act : Action α} {handle : Report → Action α} (hact : act.Keeps rel kind)
    (hhandle : ∀ r, kind (.report r) → (handle r).Keeps rel kind) :
    (recover act handle).Keeps rel kind := by
  intro s
  rw [meets_recover]
  refine (hact s).imp_bad fun f t ht => ⟨?_, fun _ => ht⟩
  rintro r rfl
  exact (hhandle r ht.2).meets (fun _ _ h => Frame.trans ht.1 h)
    fun _ _ h hk => ⟨Frame.trans ht.1 h, hk⟩

@[grind ←] theorem keeps_mapM {f : β → Action α} {bs : List β} (hf : ∀ b, (f b).Keeps rel kind) :
    (bs.mapM f).Keeps rel kind := by
  induction bs with
  | nil =>
    rw [List.mapM_nil]
    exact keeps_pure _
  | cons b bs ih =>
    rw [List.mapM_cons]
    exact keeps_bind (hf b) fun _ => keeps_bind ih fun _ => keeps_pure _

@[grind ←] theorem keeps_ofShape (v : Except ShapeFault α) : (ofShape v).Keeps rel Fault.IsMild := by
  cases v with
  | ok a => exact keeps_pure a
  | error f => exact keeps_throw trivial

@[grind ←] theorem keeps_ofLiteral (v : Except Literal.Fault α) :
    (ofLiteral v).Keeps rel Fault.IsOfDocument := by
  cases v with
  | ok a => exact keeps_pure a
  | error f => cases f <;> exact keeps_throw trivial

@[grind ←] theorem keeps_fail {k : Report.Kind} (hmap : k ≠ .unbalancedDocument)
    (hkeys : k ≠ .documentInvariant) (hfiles : k ≠ .general) (hlock : k ≠ .lockTimeout)
    (wording : String) : (fail k wording : Action α).Keeps rel Fault.IsMild := by
  refine keeps_throw ?_
  cases k with
  | unbalancedDocument | documentInvariant | general | lockTimeout => contradiction
  | _ => trivial

@[grind ←] theorem keeps_fail_map (wording : String) :
    (fail .unbalancedDocument wording : Action α).Keeps rel Fault.IsOfDocument :=
  keeps_throw trivial

@[grind ←] theorem keeps_fail_keys (wording : String) :
    (fail .documentInvariant wording : Action α).Keeps rel Fault.IsOfDocument :=
  keeps_throw trivial

@[grind ←] theorem keeps_look (f : Session → α) : (look f).Keeps rel kind :=
  fun s => (meets_look f).2 (Frame.refl s)

@[grind ←] theorem keeps_read (f : Session → Except FileFault α) :
    (read f).Keeps rel Fault.IsAccess :=
  fun s => meets_read.2 ⟨fun _ _ => Frame.refl s, fun _ _ => ⟨Frame.refl s, trivial⟩⟩

/-! ## Telling -/

@[grind ←] theorem keeps_display (i : Console.Item) : (display i).Keeps rel kind :=
  fun s => (meets_modify _).2 (Frame.shown s _)

@[grind ←] theorem keeps_displayAll (is : List Console.Item) : (displayAll is).Keeps rel kind := by
  induction is with
  | nil => exact keeps_pure _
  | cons i is ih => exact keeps_bind (keeps_display i) fun _ => ih

theorem keeps_marked_console (text : String) : (marked text).Keeps rel Fault.IsOfConsole := by
  refine keeps_bind (fun s => meets_get.2 (Frame.refl s)) fun s => ?_
  split
  · exact keeps_pure _
  · exact keeps_throw rfl

@[grind ←] theorem keeps_marked (text : String) : (marked text).Keeps rel Fault.IsMild :=
  (keeps_marked_console text).imp fun _ => Fault.IsOfConsole.mild

theorem keeps_draw_console (i : Console.Item) : (draw i).Keeps rel Fault.IsOfConsole := by
  refine keeps_bind (fun s => meets_get.2 (Frame.refl s)) fun s => ?_
  split
  · exact keeps_display _
  · exact keeps_throw rfl

@[grind ←] theorem keeps_draw (i : Console.Item) : (draw i).Keeps rel Fault.IsMild :=
  (keeps_draw_console i).imp fun _ => Fault.IsOfConsole.mild

theorem keeps_drawAll_console (is : List Console.Item) :
    (drawAll is).Keeps rel Fault.IsOfConsole := by
  induction is with
  | nil => exact keeps_pure _
  | cons i is ih => exact keeps_bind (keeps_draw_console i) fun _ => ih

@[grind ←] theorem keeps_drawAll (is : List Console.Item) : (drawAll is).Keeps rel Fault.IsMild :=
  (keeps_drawAll_console is).imp fun _ => Fault.IsOfConsole.mild

/-- Lines without a slash are shown by every console. -/
theorem keeps_drawAll_lines {texts : List String} (h : ∀ text ∈ texts, '/' ∉ text.toList) :
    (drawAll (texts.map .line)).Keeps rel kind := by
  induction texts with
  | nil => exact keeps_pure _
  | cons text texts ih =>
    obtain ⟨htext, htexts⟩ := List.forall_mem_cons.1 h
    refine keeps_bind ?_ fun _ => ih htexts
    refine keeps_bind (fun s => meets_get.2 (Frame.refl s)) fun s => ?_
    obtain ⟨shown, hshown⟩ := Option.isSome_iff_exists.1 (s.markup.line_isSome text htext)
    rw [Console.Item.read?, hshown]
    exact keeps_display _

@[grind ←] theorem keeps_say (text : String) : (say text).Keeps rel kind := keeps_display _

@[grind ←] theorem keeps_tell (level : Console.Level) (text : String) :
    (tell level text).Keeps rel kind :=
  keeps_display _

@[grind ←] theorem keeps_status (text : String) : (status text).Keeps rel kind := keeps_tell _ _

@[grind ←] theorem keeps_success (text : String) : (success text).Keeps rel kind := keeps_tell _ _

@[grind ←] theorem keeps_warn (text : String) : (warn text).Keeps rel kind := keeps_tell _ _

@[grind ←] theorem keeps_complain (text : String) : (complain text).Keeps rel kind := keeps_tell _ _

@[grind ←] theorem keeps_get : (get : Action Session).Keeps rel kind :=
  fun s => meets_get.2 (Frame.refl s)

@[grind ←] theorem keeps_note (text : String) : (note text).Keeps rel kind := by
  unfold note
  grind

@[grind ←] theorem keeps_notes (ns : List String) : (notes ns).Keeps rel kind := by
  induction ns with
  | nil => exact keeps_pure _
  | cons n ns ih => exact keeps_bind (keeps_note n) fun _ => ih

@[grind ←] theorem keeps_cellText (v : Value) : (cellText v).Keeps rel Fault.IsMild := by
  unfold cellText
  split
  · exact keeps_pure _
  · exact keeps_pure _
  · exact keeps_throw trivial

/-! ## Progress -/

theorem keeps_did {rel : Session → Session → Prop} [Frame.Deeds rel] (d : Deed) :
    (did d).Keeps rel kind :=
  fun s => (meets_modify _).2 (Frame.Deeds.did s d)

theorem keeps_begin {rel : Session → Session → Prop} [Frame.Marks rel] :
    Action.begin.Keeps rel kind :=
  fun s => (meets_modify _).2 (Frame.Marks.progress s _)

theorem keeps_cancel {rel : Session → Session → Prop} [Frame.Marks rel] (message : String) :
    (cancel message).Keeps rel kind :=
  keeps_bind (keeps_status _) fun _ s => (meets_modify _).2 (Frame.Marks.progress s _)

@[grind ←] theorem keeps_step (name : String) (succeeded : Bool) (details : String) :
    (step name succeeded details).Keeps rel kind :=
  fun s => (meets_modify _).2 (Frame.steps s _)

end
end Action
end InstanceInventory
