import InstanceInventory.Proofs.Keeper.Edit

/-! # Taking a removal back

* `Keeper.TakesBack.putsBack`: the copy of a document that was removed from and taken back holds its
  bytes, and the document its text with unified line endings.
* `Keeper.removal_taken_back`: what a removal leaves behind that reports that it was taken back.
-/

namespace InstanceInventory
set_option autoImplicit false
open InstanceInventory.Action (Frame Meets meets_bind still_last)
open Session (Did Still)
variable {s s' t u : Session} {f : Fault}

/-- What is left where a removal is taken back: a copy that the report names, with the bytes and the
mode of the document, and the text of the copy in place of the document. Line endings are unified, so
the document has its bytes again exactly when it holds no carriage return. -/
def Keeper.PutsBack (k : Keeper) (s : Session) (f : Fault) (s' : Session) : Prop :=
  ∀ wording backup, f = .report (.postWrite wording backup true) →
    ∃ copy raw mode, backup = some (Files.Path.text copy) ∧
      k.store.held? s = some (raw.toUTF8, mode) ∧
      s'.files.fileAt? (s'.site copy) = some (raw.toUTF8, mode) ∧
      k.store.held? s' = some ((Text.unifyNewlines raw).toUTF8, mode) ∧
      (k.store.held? s' = k.store.held? s ↔ '\r' ∉ raw.toList)

namespace Keeper
variable {k : Keeper} {key : String} {forget : Bool}

theorem putsBack_of_not (h : ¬ f.IsPostWrite) : k.PutsBack s f s' := by
  rintro _ _ rfl
  exact absurd trivial h

/-- What is left behind depends on the document at the beginning only. -/
theorem PutsBack.of_held? (h : k.PutsBack t f s') (hs : k.store.held? t = k.store.held? s) :
    k.PutsBack s f s' := by
  rw [PutsBack, hs] at h
  exact h

theorem PutsBack.then_still (h : k.PutsBack s f s') (hs : Still s' t) : k.PutsBack s f t := by
  intro wording backup hf
  obtain ⟨copy, raw, mode, hbackup, hbefore, hcopy, hafter, hsame⟩ := h wording backup hf
  have hheld : k.store.held? t = k.store.held? s' := Store.held?_of_still hs
  refine ⟨copy, raw, mode, hbackup, hbefore, ?_, hheld.trans hafter, hheld ▸ hsame⟩
  rw [hs.site, hs.files _ (Set.notMem_empty _), hcopy]

theorem TakesBack.putsBack (h : k.TakesBack key forget f s s') : k.PutsBack s f s' := by
  obtain ⟨w, copy, t, u, text, wording, -, -, hwritten, ⟨runs, hruns, -⟩, hread, hback, rfl⟩ := h
  rintro wording backup ⟨⟩
  obtain ⟨⟨bytes, mode⟩, hheld, hcopied, hne, hresult⟩ := hwritten.copied
  obtain ⟨content, hfile, raw, hraw, rfl⟩ := Files.Tree.readText_eq_ok.1 hread
  have hstands : u.files.fileAt? (u.site copy) = some (bytes, mode) := by
    rw [hruns.site, hruns.files _ (Set.notMem_empty _), hcopied]
  obtain rfl : (bytes, mode) = content :=
    Option.some.inj (hstands.symm.trans (Files.Tree.file_eq_ok.1 hfile).2)
  obtain rfl := (Text.fromUTF8?_eq_some_iff bytes raw).1 hraw
  have hafter : k.store.held? s' = some ((Text.unifyNewlines raw).toUTF8, mode) := by
    rw [hback.document, Store.held?_of_still hruns, hresult]
    rfl
  have hne' : u.site copy ∉ ({u.site k.store.path} : Set Files.Place) := by
    rw [hruns.site, hruns.site]
    exact hne
  refine ⟨copy, raw, mode, rfl, hheld, ?_, hafter, ?_⟩
  · rw [hback.did.site, hback.did.files _ hne', hstands]
  · rw [hafter, hheld, ← Text.unifyNewlines_eq_self_iff]
    constructor
    · intro heq
      exact String.toByteArray_inj.1 (Prod.mk.inj (Option.some.inj heq)).1
    · intro heq
      rw [heq]

/-- A removal that reports that it was taken back has left a copy of the document, which the report
names, and has put the text of the copy in place of the document. -/
theorem removal_taken_back (k : Keeper) (key : String) (forget : Bool) (s : Session) :
    (k.remove key forget).Meets s (fun _ _ => True) fun f s' => k.PutsBack s f s' := by
  have hintroduced : (some <$> (introduceRemoval key : Process Unit)).alone.Meets s
      (fun _ t => Still s.begun t) fun f t => k.PutsBack s f t := by
    rw [Process.alone_map, Process.alone_lift, Action.meets_map]
    refine (introduceRemoval_meets key s).imp (fun _ _ => id) ?_
    rintro _ t ⟨-, -, rfl⟩
    exact putsBack_of_not id
  refine Operation.alone_meets hintroduced (fun _ _ => trivial)
    (fun _ _ _ _ _ _ hf => putsBack_of_not hf.not_postWrite) ?_
  intro _ t u ht hu
  have hheld : k.store.held? u = k.store.held? s := hu.held?.trans ((Store.held?_of_still ht).trans rfl)
  refine (k.takeOut_meets key forget u).imp (fun rest v _ => ?_) fun f v hv => ?_
  · have hreport : (k.reportRemoval forget rest).Keeps Still Fault.IsOfConsole :=
      k.keeps_reportRemoval forget rest
    exact hreport.meets (fun _ _ _ => trivial) fun _ _ _ hf => putsBack_of_not hf.mild.not_postWrite
  · refine PutsBack.then_still ?_ (Store.still_released v)
    rcases hv with ⟨hf, -⟩ | ⟨hf | hf, -⟩ | hv
    · exact putsBack_of_not hf
    · exact putsBack_of_not hf.not_postWrite
    · exact putsBack_of_not hf.not_postWrite
    · exact hv.putsBack.of_held? hheld

end Keeper
end InstanceInventory
