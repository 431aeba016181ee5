import InstanceInventory.Proofs.Document.Check
import InstanceInventory.Proofs.Literal.Printed

/-! # Documents that hold records

* `Document.Holds`: taking a text apart gives records, each as its block is written.
* `holds_empty`, `holds_render`: an empty text holds no records, and a rendered document those that
  it is rendered from.
* `flaw?_records`: a document that is rendered from records with distinct keys has no flaw.
-/

namespace InstanceInventory
set_option autoImplicit false
open Literal

/-! ## Records as blocks -/

/-- The block of a record in a document. -/
noncomputable def InstanceRecord.written (r : InstanceRecord) : Document.Block :=
  (Document.exists_recordBlock r Record.blockLevel).choose

def InstanceRecord.blockText (r : InstanceRecord) : String :=
  r.block Record.blockLevel

namespace InstanceRecord
variable (r : InstanceRecord)

@[simp] theorem key_written : r.written.key = r.key :=
  (Document.exists_recordBlock r Record.blockLevel).choose_spec.1

@[simp] theorem text_written : r.written.text = r.blockText :=
  (Document.exists_recordBlock r Record.blockLevel).choose_spec.2.1

theorem settled_written : r.written.Settled :=
  (Document.exists_recordBlock r Record.blockLevel).choose_spec.2.2

theorem headed_written : r.written.Headed :=
  r.settled_written.headed r.key_written r.text_written

theorem printed_blockText : IsPrinted r.blockText.toList :=
  printed_renderEntry _ _ _

theorem parse_blockText {r : InstanceRecord} (h : r.TagsClear) :
    Record.parse r.blockText = .ok (.ok (r.key, r)) :=
  InstanceInventory.parse_block h _

end InstanceRecord

namespace Document
variable {rs : List InstanceRecord}

theorem map_key_written (rs : List InstanceRecord) :
    (rs.map InstanceRecord.written).map Block.key = rs.map InstanceRecord.key := by
  simp [Function.comp_def]

theorem map_text_written (rs : List InstanceRecord) :
    (rs.map InstanceRecord.written).map Block.text = rs.map InstanceRecord.blockText := by
  simp [Function.comp_def]

theorem settled_of_mem_written : ∀ b ∈ rs.map InstanceRecord.written, b.Settled := by
  intro b hb
  obtain ⟨r, -, rfl⟩ := List.mem_map.1 hb
  exact r.settled_written

theorem headed_of_mem_written : ∀ b ∈ rs.map InstanceRecord.written, b.Headed := by
  intro b hb
  obtain ⟨r, -, rfl⟩ := List.mem_map.1 hb
  exact r.headed_written

/-! ## Printed characters -/

/-- A line without control characters, unless it holds newlines. -/
structure PrintedLine (l : String) : Prop where
  chars : IsPrinted l.toList

theorem PrintedLine.constant {cs : List Char}
    (h : cs.all (fun c => decide (0x20 ≤ c.toNat)) = true) : PrintedLine (String.ofList cs) where
  chars := by
    rw [String.toList_ofList]
    exact fun c hc => .inr (by simpa using List.all_eq_true.1 h c hc)

theorem PrintedLine.setting {cs : List Char} (h : cs.all (fun c => decide (0x20 ≤ c.toNat)) = true)
    (s : String) : PrintedLine (String.ofList cs ++ quoteString s) where
  chars := by
    rw [String.toList_append, quoteString, String.toList_ofList (l := stringChars s)]
    exact (PrintedLine.constant h).chars.append (printed_stringChars s)

theorem forall_mem_closeLines {p : Char → Prop} (hnewline : p '\n') {ls : List String}
    (h : ∀ l ∈ ls, ∀ c ∈ l.toList, p c) : ∀ c ∈ (closeLines ls).toList, p c := by
  rw [toList_closeLines]
  intro c hc
  obtain ⟨cs, hcs, hc⟩ := List.mem_flatMap.1 hc
  obtain ⟨l, hl, rfl⟩ := List.mem_map.1 hcs
  rcases List.mem_append.1 hc with hc | hc
  · exact h l hl c hc
  · rwa [List.mem_singleton.1 hc]

theorem printed_closeLines {ls : List String} (h : ∀ l ∈ ls, PrintedLine l) :
    IsPrinted (closeLines ls).toList :=
  forall_mem_closeLines (.inl rfl) fun l hl => (h l hl).chars

theorem printed_preamble (o : Options) : ∀ l ∈ preamble o, PrintedLine l := by
  simp only [preamble, List.forall_mem_cons]
  repeat' refine And.intro ?_ ?_
  all_goals first
    | exact .setting (by decide +kernel) _
    | exact .constant (by decide +kernel)
    | exact List.forall_mem_nil _

theorem printed_mapClose : ∀ l ∈ mapClose, PrintedLine l := by
  simp only [mapClose, List.forall_mem_cons]
  exact ⟨.constant (by decide +kernel), .constant (by decide +kernel), List.forall_mem_nil _⟩

theorem printed_resources (o : Options) : ∀ l ∈ resources o, PrintedLine l := by
  obtain ⟨region, version, protects⟩ := o
  cases protects
  all_goals
    simp only [resources, Bool.false_eq_true, if_false, if_true, String.reduceAppend,
      List.forall_mem_cons]
    repeat' refine And.intro ?_ ?_
    all_goals first
      | exact .constant (by decide +kernel)
      | exact List.forall_mem_nil _

/-- A rendered document has no characters besides those of its blocks and printed ones. -/
theorem forall_mem_render {p : Char → Prop} (hprinted : ∀ c, c = '\n' ∨ 0x20 ≤ c.toNat → p c)
    (o : Options) {blocks : List String} (h : ∀ b ∈ blocks, ∀ c ∈ b.toList, p c) :
    ∀ c ∈ (render o blocks).toList, p c := by
  have hfixed : ∀ {ls}, (∀ l ∈ ls, PrintedLine l) → ∀ c ∈ (closeLines ls).toList, p c :=
    fun hls c hc => hprinted c (printed_closeLines hls c hc)
  rw [render, String.toList_append, String.toList_append, String.toList_append]
  simp only [List.forall_mem_append]
  exact ⟨⟨⟨hfixed (printed_preamble o), forall_mem_closeLines (hprinted _ (.inl rfl)) h⟩,
    hfixed printed_mapClose⟩, hfixed (printed_resources o)⟩

theorem printed_render (o : Options) {blocks : List String} (h : ∀ b ∈ blocks, PrintedLine b) :
    IsPrinted (render o blocks).toList :=
  forall_mem_render (fun _ => id) o fun b hb => (h b hb).chars

/-- A rendered document has no carriage return, unless one of its blocks has. -/
theorem return_not_mem_render (o : Options) {blocks : List String}
    (h : ∀ b ∈ blocks, '\r' ∉ b.toList) : '\r' ∉ (render o blocks).toList := by
  have hne : ∀ c ∈ (render o blocks).toList, c ≠ '\r' := by
    refine forall_mem_render (fun c hc => ?_) o fun b hb c hc hreturn => h b hb (hreturn ▸ hc)
    rintro rfl
    exact absurd hc (by decide)
  exact fun hmem => hne _ hmem rfl

/-! ## What a document holds -/

/-- Taking a text apart gives records, in order, each as its block is written. -/
structure Holds (text : String) (rs : List InstanceRecord) : Prop where
  keys : keys text = .ok (rs.map InstanceRecord.key)
  splice : ∀ target, ∃ removed, splice text target = .ok
    ⟨(rs.filter fun r => target != some r.key).map InstanceRecord.blockText, removed⟩
  extract : ∀ r ∈ rs, extract text r.key = .ok (some r.blockText)
  map : ∃ region, requireMap text = .ok (.ok region) ∧
    (region.isSome = true ∨ Text.isBlankText text = true)
  printed : IsPrinted text.toList

/-- An empty text holds no records. -/
theorem holds_empty : Holds "" [] where
  keys := by decide +kernel
  splice target := ⟨none, by cases target <;> rfl⟩
  extract _ hr := nomatch hr
  map := ⟨none, by decide +kernel, .inr rfl⟩
  printed := by decide

theorem filter_written (p : String → Bool) (rs : List InstanceRecord) :
    (rs.map InstanceRecord.written).filter (fun b => p b.key) =
      (rs.filter fun r => p r.key).map InstanceRecord.written := by
  rw [List.filter_map]
  simp [Function.comp_def]

/-- What has a key among what has distinct keys. -/
theorem filter_key_eq {α : Type} {key : α → String} {xs : List α} (h : (xs.map key).Nodup) {x : α}
    (hx : x ∈ xs) : xs.filter (fun y => some (key x) == some (key y)) = [x] := by
  induction xs with
  | nil => cases hx
  | cons y ys ih =>
    rw [List.map_cons, List.nodup_cons] at h
    rcases List.mem_cons.1 hx with rfl | hx
    · have hrest : ys.filter (fun y => some (key x) == some (key y)) = [] := by
        refine List.filter_eq_nil_iff.2 fun y hy hkey => h.1 ?_
        rw [beq_iff_eq, Option.some_inj] at hkey
        rw [hkey]
        exact List.mem_map_of_mem hy
      rw [List.filter_cons_of_pos (by simp), hrest]
    · have hne : key x ≠ key y := fun hkey => h.1 (hkey ▸ List.mem_map_of_mem hx)
      rw [List.filter_cons_of_neg (by simpa using hne), ih h.2 hx]

/-- A rendered document holds the records that it is rendered from. -/
theorem holds_render (o : Options) (h : (rs.map InstanceRecord.key).Nodup) :
    Holds (render o (rs.map InstanceRecord.blockText)) rs := by
  -- Every block is set on lines of its own, which changes neither its key nor its text.
  have hsettled : ∀ b ∈ rs.map InstanceRecord.written, b.Settled := settled_of_mem_written
  obtain ⟨lines, back, -, harranges⟩ := arranges_render o hsettled
  have honLines : ∀ p : String → Bool,
      (((rs.map InstanceRecord.written).map Block.onLines).filter fun b => p b.key).map Block.text =
        (rs.filter fun r => p r.key).map InstanceRecord.blockText := by
    intro p
    have hkey : ((fun b : Block => p b.key) ∘ Block.onLines) = fun b => p b.key := rfl
    have htext : Block.text ∘ Block.onLines = Block.text := rfl
    rw [List.filter_map, List.map_map, hkey, htext, filter_written, map_text_written]
  rw [map_text_written] at harranges
  refine ⟨?_, fun target => ?_, fun r hr => ?_, ?_, ?_⟩
  · rw [harranges.keys, List.map_map]
    exact congrArg Except.ok (map_key_written rs)
  · have hstay := honLines fun k => target != some k
    exact ⟨_, hstay ▸ harranges.splice target⟩
  · have hcut := honLines fun k => some r.key == some k
    rw [filter_key_eq h hr, List.map_singleton] at hcut
    have hne : (((rs.map InstanceRecord.written).map Block.onLines).filter
        fun b => some r.key == some b.key).isEmpty = false := by
      rw [List.isEmpty_eq_false_iff]
      intro hnil
      rw [hnil] at hcut
      cases hcut
    rw [Document.extract, harranges.splice (some r.key), Except.map, hcut, hne]
    simp [Text.joinLines]
  · obtain ⟨region, hregion⟩ := requireMap_render o hsettled
    rw [map_text_written] at hregion
    exact ⟨some region, hregion, .inl rfl⟩
  · refine printed_render o fun b hb => ?_
    obtain ⟨r, -, rfl⟩ := List.mem_map.1 hb
    exact ⟨r.printed_blockText⟩

/-- A document that is rendered from records with distinct keys has no flaw. -/
theorem flaw?_records (o : Options) (h : (rs.map InstanceRecord.key).Nodup) :
    flaw? (render o (rs.map InstanceRecord.blockText)) (rs.map InstanceRecord.key) = .ok none := by
  rw [← map_key_written, ← map_text_written]
  refine flaw?_render o settled_of_mem_written headed_of_mem_written ?_
  rw [map_key_written]
  exact h

end Document
end InstanceInventory
