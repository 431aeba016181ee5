import InstanceInventory.Proofs.Keeper.Edit
import InstanceInventory.Proofs.System

/-! # Edits among others

* `Edit.courteous`: every edit leaves the files alone unless it holds the lock, and leaves the file of
  the lock in its place while it holds it.
-/

namespace InstanceInventory
set_option autoImplicit false
open InstanceInventory.Action (Frame Keeps keeps_bind keeps_pure)
open Process (keeps_lift keeps_lift_bind keeps_then keeps_last keeps_map)
open Session (Retains)

namespace Keeper
variable {P : Files.Path → Files.Tree → Prop}

/-! ## Before the lock is taken -/

theorem keeps_gather (k : Keeper) : k.gather.Keeps (Retains P) := by
  have htell : ∀ items, (Action.displayAll items).Keeps (Retains P) fun _ => True :=
    fun _ => Action.keeps_displayAll _
  have hstatus : ∀ text, (Action.status text).Keeps (Retains P) fun _ => True :=
    fun _ => Action.keeps_status _
  have hbegin : Action.begin.Keeps (Retains P) fun _ => True := Action.keeps_begin
  have hcancel : ∀ message, (Action.cancel message).Keeps (Retains P) fun _ => True :=
    fun _ => Action.keeps_cancel _
  unfold gather
  refine keeps_lift_bind hbegin fun _ => keeps_lift_bind (htell _) fun _ =>
    keeps_lift_bind k.store.keeps_readText fun text =>
    keeps_lift_bind (Document.keeps_demandMap text) fun _ =>
    Process.keeps_bind (k.keeps_introduceCreation text) fun _ =>
    keeps_lift_bind Prompt.keeps_name fun name => keeps_lift_bind (hstatus _) fun _ =>
    keeps_lift_bind (Document.keeps_keysOf text) fun keys => ?_
  split
  · exact keeps_lift (keeps_refuseDuplicate _ _)
  · refine keeps_lift_bind (Prompt.keeps_collectRecord _ _ _) fun d =>
      keeps_lift_bind d.keeps_validate fun _ => keeps_lift_bind (Prompt.keeps_showSummary d _)
        fun _ => keeps_lift_bind (Prompt.keeps_confirm _ _) fun confirmed => ?_
    split
    · exact Process.keeps_pure _
    · exact keeps_lift_bind (hcancel _) fun _ => Process.keeps_pure _

/-- An action that ends with a report at once does nothing. -/
theorem keeps_fail_bind {α β : Type} {rel : Session → Session → Prop} [Frame rel]
    {kind : Report.Kind} {wording : String} {f : α → Action β} {faults : Fault → Prop}
    (h : faults (.report (.plain kind wording))) :
    ((Action.fail kind wording : Action α) >>= f).Keeps rel faults := fun _ =>
  Action.meets_bind.2 ((Action.meets_fail _ _).2 ⟨Frame.refl _, h⟩)

theorem keeps_fetch (k : Keeper) (id : String) : (k.fetch id).Keeps (Retains P) Fault.IsMild := by
  unfold fetch
  refine keeps_bind Action.keeps_begin fun _ => ?_
  dsimp only
  split
  · exact keeps_fail_bind trivial
  · exact keeps_bind (Action.keeps_displayAll _) fun _ => keeps_bind (Action.keeps_status _) fun _ =>
      keeps_bind (Action.keeps_status _) fun _ => keeps_bind (k.keeps_fetchDraft id) fun d =>
      keeps_bind (Action.keeps_ofShape _) fun key => keeps_bind (Action.keeps_step _ _ _) fun _ =>
      keeps_bind (Prompt.keeps_showSummary d _) fun _ => keeps_pure _

theorem keeps_introduceRemoval (key : String) :
    (introduceRemoval key).Keeps (Retains P) Fault.IsMild := by
  unfold introduceRemoval
  refine keeps_bind Action.keeps_begin fun _ => ?_
  dsimp only
  split
  · exact keeps_fail_bind trivial
  · exact keeps_bind (Action.keeps_displayAll _) fun _ => Action.keeps_status _

/-! ## Under the lock -/

section
variable {k : Keeper}

theorem guards_backup (k : Keeper) : k.backup.Keeps k.store.Guards fun _ => True := fun s =>
  (k.backup_meets s).imp (fun _ _ h => h.guards) fun _ _ h => ⟨Store.guards_of_still h.1, trivial⟩

theorem guards_writeDocument (k : Keeper) (blocks expected : List String) :
    (k.writeDocument blocks expected).Keeps k.store.Guards fun _ => True := fun s =>
  (k.writeDocument_meets blocks expected s).imp (fun _ _ h => h.1.guards)
    fun _ _ h => ⟨Store.guards_of_still h.1, trivial⟩

theorem guards_restore (st : Store) (copy : Files.Path) :
    (st.restore copy).Keeps st.Guards fun _ => True := fun s =>
  (st.restore_meets copy s).imp (fun _ _ h => h.elim fun _ h => h.2.guards)
    fun _ _ h => ⟨Store.guards_of_still h.1, trivial⟩

theorem guards_addTo (k : Keeper) (text : String) (d : Draft) (key : String) (keys : List String) :
    (k.addTo text d key keys).Keeps k.store.Guards :=
  keeps_lift_bind k.guards_backup fun _ =>
    keeps_lift_bind (Document.keeps_blocksWithout text none) fun _ =>
    keeps_lift_bind (Action.keeps_ofShape _) fun _ => keeps_lift (k.guards_writeDocument _ _)

theorem guards_add (k : Keeper) (d : Draft) (key : String) :
    (k.add d key).Keeps k.store.Guards := by
  unfold add
  refine keeps_lift_bind k.store.keeps_readText fun text =>
    keeps_lift_bind (Document.keeps_keysOf text) fun keys => ?_
  split
  · exact keeps_lift (keeps_refuseDuplicate text key)
  · refine keeps_lift_bind (k.keeps_accepts text false) fun accepted => ?_
    split
    · exact keeps_then (Action.keeps_cancel _) fun _ => Process.keeps_pure _
    · exact Process.keeps_bind (k.guards_addTo text d key keys) fun _ => Process.keeps_pure _

theorem guards_putIn (k : Keeper) (text : String) (d : Draft) (key id : String)
    (keys : List String) : (k.putIn text d key id keys).Keeps k.store.Guards := by
  unfold putIn
  exact keeps_then (Action.keeps_status _) fun _ => keeps_lift_bind k.guards_backup fun copy =>
    keeps_lift_bind (Document.keeps_blocksWithout text (some key)) fun _ =>
    keeps_lift_bind (Action.keeps_ofShape _) fun _ =>
    keeps_lift_bind (k.guards_writeDocument _ _) fun _ =>
    keeps_then (Action.keeps_success _) fun _ => keeps_then (Action.keeps_step _ _ _) fun _ =>
    keeps_then (Action.keeps_status _) fun _ =>
    keeps_lift_bind (k.keeps_checkImport copy) fun _ =>
    keeps_lift_bind (k.keeps_importState _ id) fun _ => keeps_then (Action.keeps_status _) fun _ =>
    keeps_lift_bind (k.terraform.keeps_run .plan) fun _ => keeps_then (Action.keeps_say _) fun _ =>
    keeps_last (Action.keeps_step _ _ _)

theorem guards_place (k : Keeper) (d : Draft) (key id : String) (assumeYes : Bool) :
    (k.place d key id assumeYes).Keeps k.store.Guards := by
  unfold place
  refine keeps_lift_bind k.store.keeps_readText fun text =>
    keeps_lift_bind (Document.keeps_keysOf text) fun keys =>
    keeps_lift_bind (k.keeps_acceptsImport text key keys assumeYes) fun accepted => ?_
  split
  · exact keeps_then (Action.keeps_cancel _) fun _ => Process.keeps_pure _
  · exact Process.keeps_bind (k.guards_putIn text d key id keys) fun _ => Process.keeps_pure _

theorem guards_checkRemoval (k : Keeper) (key : String) (copy : Option Files.Path) :
    (k.checkRemoval key copy).Keeps k.store.Guards fun _ => True := by
  unfold checkRemoval
  refine keeps_bind (keeps_onTerraformFailure k.keeps_checkDocument.any fun r stderr => ?_)
    fun _ => Action.keeps_step _ _ _
  refine keeps_bind (Action.keeps_complain _) fun _ => ?_
  cases copy with
  | none => exact keeps_bind (Action.keeps_step _ _ _) fun _ => Action.keeps_throw trivial
  | some copy =>
    exact keeps_bind (guards_restore k.store copy) fun _ =>
      keeps_bind (Action.keeps_step _ _ _) fun _ => Action.keeps_throw trivial

theorem guards_cutOut (k : Keeper) (text key : String) (rest : List String) (forget : Bool) :
    (k.cutOut text key rest forget).Keeps k.store.Guards := by
  unfold cutOut
  refine keeps_lift_bind k.guards_backup fun copy => keeps_then (Action.keeps_status _) fun _ =>
    keeps_lift_bind (Document.keeps_blocksWithout text (some key)) fun _ =>
    keeps_lift_bind (k.guards_writeDocument _ _) fun _ =>
    keeps_then (Action.keeps_success _) fun _ => keeps_then (Action.keeps_step _ _ _) fun _ =>
    keeps_then (Action.keeps_status _) fun _ =>
    keeps_lift_bind (k.guards_checkRemoval key copy) fun _ => ?_
  split
  · exact keeps_lift (k.keeps_forgetState key)
  · exact Process.keeps_pure _

theorem guards_takeOut (k : Keeper) (key : String) (forget : Bool) :
    (k.takeOut key forget).Keeps k.store.Guards := by
  have hreport : ∀ r, (Action.report r : Action (List String)).Keeps k.store.Guards fun _ => True :=
    fun _ => Action.keeps_throw trivial
  unfold takeOut
  refine keeps_lift_bind (Action.keeps_read _) fun present => ?_
  split
  · exact keeps_then (Action.keeps_complain _) fun _ => keeps_lift (hreport _)
  · refine keeps_lift_bind k.store.keeps_readText fun text =>
      keeps_lift_bind (Document.keeps_demandMap text) fun _ =>
      keeps_lift_bind (Document.keeps_keysOf text) fun keys => ?_
    split
    · exact keeps_lift (hreport _)
    · exact Process.keeps_bind (k.guards_cutOut text key _ forget) fun _ => Process.keeps_pure _

end
end Keeper

/-! ## Edits -/

/-- Every edit leaves the files alone unless it holds the lock, and leaves the file of the lock in its
place while it holds it. -/
theorem Edit.courteous (k : Keeper) (e : Edit) : (e.operation k).Courteous := by
  cases e with
  | create =>
    refine ⟨fun P => k.keeps_gather, fun p => k.guards_add p.1 p.2, fun P p outcome => ?_⟩
    cases outcome with
    | none => exact keeps_pure _
    | some keys => exact k.keeps_reportCreation p.1 p.2 keys
  | importInstance id assumeYes =>
    refine ⟨fun P => keeps_map (keeps_lift (k.keeps_fetch id)),
      fun p => k.guards_place p.1 p.2 id assumeYes, fun P p isPlaced => ?_⟩
    cases isPlaced with
    | false => exact keeps_pure _
    | true => exact Action.keeps_success _
  | remove key forget =>
    exact ⟨fun P => keeps_map (keeps_lift (Keeper.keeps_introduceRemoval key)),
      fun _ => k.guards_takeOut key forget, fun P _ rest => k.keeps_reportRemoval forget rest⟩

end InstanceInventory
