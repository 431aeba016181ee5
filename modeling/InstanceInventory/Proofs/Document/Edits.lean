import InstanceInventory.Proofs.Document.Written

/-! # Edits of a document

* `Arranges.settled`: the blocks of a document are read back in any other document.
* `edits_keep_blocks`: cutting a key out of a well mapped document and writing a record into it
  keeps every other block as it stands.
-/

namespace InstanceInventory.Document
set_option autoImplicit false
open Literal

/-! ## Blocks of a document -/

theorem Arranged.valid {bs : List Block} {trail : List Piece} (h : Arranged bs trail) :
    ∀ b ∈ bs, b.Valid := by
  induction h with
  | nil => exact fun _ hb => nomatch hb
  | cons valid _ _ ih => exact List.forall_mem_cons.2 ⟨valid, ih⟩

theorem exists_lexed_kept {after : List Char} {bs : List Block} {trail : List Piece}
    (h : Lexed after (regionPieces bs trail)) : ∀ b ∈ bs, ∃ before, Lexed before b.kept := by
  induction bs with
  | nil => exact fun _ hb => nomatch hb
  | cons b bs ih =>
    have e : regionPieces (b :: bs) trail = b.junk ++ (b.kept ++ regionPieces bs trail) := by
      simp [regionPieces, Block.pieces]
    rw [e] at h
    exact List.forall_mem_cons.2 ⟨⟨_, h.right.left⟩, ih h.right.right⟩

/-- The blocks of a document are read back in any other document. -/
theorem Arranges.settled {text : String} {front trail back : List Piece} {bs : List Block}
    (h : Arranges text front bs trail back) : ∀ b ∈ bs, b.Settled := by
  intro b hb
  have hvalid := h.arranged.valid b hb
  obtain ⟨before, hlexed⟩ := exists_lexed_kept (lexed_inner h.lexed) b hb
  exact ⟨hvalid, b.lexed_relocated hvalid hlexed⟩

/-- The entries of blocks begin after the text before them, one after another. -/
theorem pairwise_entriesAfter (pre : List Char) (bs : List Block) :
    (∀ e ∈ entriesAfter pre bs, pre.length ≤ e.start) ∧
      (entriesAfter pre bs).Pairwise fun d e => d.stop ≤ e.start := by
  induction bs generalizing pre with
  | nil => exact ⟨(fun _ he => nomatch he), .nil⟩
  | cons b bs ih =>
    obtain ⟨hstart, hpairwise⟩ := ih (pre ++ charsOf b.pieces)
    refine ⟨List.forall_mem_cons.2 ⟨?_, fun e he => ?_⟩, .cons hstart hpairwise⟩
    · simp [Block.entryAfter]
    · have := hstart e he
      rw [List.length_append] at this
      omega

/-! ## Rendering blocks -/

/-- A document that is rendered from blocks holds these blocks. -/
theorem render_blocks (o : Options) {bs : List Block} (h : ∀ b ∈ bs, b.Settled) :
    (∃ before is, WellMapped (render o (bs.map Block.text)) before is ∧
      is.map MapItem.name = bs.map Block.key) ∧
    keys (render o (bs.map Block.text)) = .ok (bs.map Block.key) ∧
    splice (render o (bs.map Block.text)) none = .ok ⟨bs.map Block.text, none⟩ := by
  obtain ⟨lines, back, -, harranges⟩ := arranges_render o h
  have hkeys : (bs.map Block.onLines).map Block.key = bs.map Block.key := by
    rw [List.map_map]
    rfl
  have htexts : (bs.map Block.onLines).map Block.text = bs.map Block.text := by
    rw [List.map_map]
    rfl
  refine ⟨?_, ?_, ?_⟩
  · obtain ⟨before, is, hmapped, hnames⟩ := harranges.wellMapped fun b hb => by
      obtain ⟨c, -, rfl⟩ := List.mem_map.1 hb
      exact List.mem_singleton_self _
    exact ⟨before, is, hmapped, hnames.trans hkeys⟩
  · rw [harranges.keys, hkeys]
  · have hstay : (bs.map Block.onLines).filter (fun b => none != some b.key) =
        bs.map Block.onLines := List.filter_eq_self.2 fun _ _ => rfl
    have hcut : (bs.map Block.onLines).filter (fun b => none == some b.key) = [] :=
      List.filter_eq_nil_iff.2 fun _ _ => Bool.false_ne_true
    rw [harranges.splice none, hstay, hcut, htexts]
    rfl

/-- The blocks of records that are written into a document. -/
def recordTexts (r : Option InstanceRecord) : List String :=
  r.toList.map fun r => r.block Record.blockLevel

theorem exists_recordBlocks (r : Option InstanceRecord) :
    ∃ bs : List Block, bs.map Block.text = recordTexts r ∧
      bs.map Block.key = r.toList.map InstanceRecord.key ∧ ∀ b ∈ bs, b.Settled := by
  cases r with
  | none => exact ⟨[], rfl, rfl, fun _ hb => nomatch hb⟩
  | some r =>
    obtain ⟨b, hkey, htext, hsettled⟩ := exists_recordBlock r Record.blockLevel
    exact ⟨[b], by simp [recordTexts, htext], by simp [hkey], by simpa using hsettled⟩

/-! ## Edits -/

/-- Cutting a key out of a well mapped document and writing a record into it keeps every other
block as it stands: the blocks that stay are parts of the text, one after another, each with the
comments above it, and the new document is well mapped and holds exactly these and the record's. -/
theorem edits_keep_blocks {text : String} {before : List Token} {is : List MapItem}
    (h : WellMapped text before is) (target : Option String) (r : Option InstanceRecord)
    (o : Options) :
    ∃ es s before' is', mapEntries text = .ok es ∧ Covers text.toList before is es ∧
      es.Pairwise (fun d e => d.stop ≤ e.start) ∧ splice text target = .ok s ∧
      s.remaining = (es.filter fun e => target != some e.key).map (fun e => e.text text) ∧
      WellMapped (render o (s.remaining ++ recordTexts r)) before' is' ∧
      is'.map MapItem.name = ((is.map MapItem.name).filter fun k => target != some k) ++
        r.toList.map InstanceRecord.key ∧
      keys (render o (s.remaining ++ recordTexts r)) = .ok (is'.map MapItem.name) ∧
      splice (render o (s.remaining ++ recordTexts r)) none =
        .ok ⟨s.remaining ++ recordTexts r, none⟩ := by
  obtain ⟨front, bs, trail, back, harranges, hnames, hcovers⟩ := h.arranges
  obtain ⟨cs, htexts, hkeys, hsettled⟩ := exists_recordBlocks r
  have hstay := filter_shows (fun k => target != some k) harranges.shows
  have hrendered : ∀ b ∈ (bs.filter fun b => target != some b.key) ++ cs, b.Settled := by
    intro b hb
    rcases List.mem_append.1 hb with hb | hb
    · exact harranges.settled b (List.mem_of_mem_filter hb)
    · exact hsettled b hb
  obtain ⟨⟨before', is', hmapped, hnames'⟩, hkeys', hsplice'⟩ := render_blocks o hrendered
  rw [List.map_append, htexts] at hmapped hkeys' hsplice'
  refine ⟨_, _, before', is', harranges.mapEntries, hcovers, (pairwise_entriesAfter _ _).2,
    harranges.splice target, (map_text_of_shows hstay).symm, hmapped, ?_, ?_, hsplice'⟩
  · rw [hnames', List.map_append, hkeys, ← hnames, List.filter_map]
    rfl
  · rw [hkeys', hnames']

/-- A document with a record that has a comment above it, a brace in a string and a comment after
it. -/
def exampleText : String :=
  "x = \x7b\n instances = \x7b\n# a\n  a = \x7b b = \"\x7d\" \x7d # b\n\x7d\x7d"

def exampleBefore : List Token :=
  [⟨.newline, "\n", 20, 21, 1⟩, ⟨.comment, "# a", 21, 24, 2⟩, ⟨.newline, "\n", 24, 25, 2⟩]

def exampleItem : MapItem where
  name := "a"
  key := ⟨.ident, "a", 27, 28, 3⟩
  sign := ⟨.equals, "=", 29, 30, 3⟩
  opening := ⟨.openBrace, "\x7b", 31, 32, 3⟩
  inside := [⟨.ident, "b", 33, 34, 3⟩, ⟨.equals, "=", 35, 36, 3⟩,
    ⟨.string "\x7d" false, "\"\x7d\"", 37, 40, 3⟩]
  closing := ⟨.closeBrace, "\x7d", 41, 42, 3⟩
  comma := none
  after := [⟨.comment, "# b", 43, 46, 3⟩, ⟨.newline, "\n", 46, 47, 3⟩]

theorem wellMapped_example : WellMapped exampleText exampleBefore [exampleItem] where
  reads := by
    have hinner : (tokenize exampleText).map (innerTokens ⟨1, 4, 20, 47⟩) =
        .ok (exampleBefore ++ [exampleItem].flatMap MapItem.tokens) := by
      decide +kernel
    cases htokens : tokenize exampleText with
    | error e =>
      rw [htokens] at hinner
      cases hinner
    | ok ts =>
      rw [htokens] at hinner
      exact ⟨ts, ⟨1, 4, 20, 47⟩, rfl, by decide +kernel, Except.ok.inj hinner⟩
  before := by decide
  items := by
    refine List.forall_mem_singleton.2 ⟨rfl, rfl, rfl, ?_, rfl, (fun _ h => nomatch h), by decide⟩
    exact .plain rfl rfl (.plain rfl rfl (.plain rfl rfl .nil))
  apart := fun _ hi => nomatch hi

theorem edits_keep_blocks_example :
    ∃ s before is, splice exampleText (some "c") = .ok s ∧
      WellMapped (render ⟨"eu-central-1", "~> 5.0", true⟩
        (s.remaining ++ recordTexts (some exampleRecord))) before is ∧
      is.map MapItem.name = ["a", exampleRecord.key] := by
  obtain ⟨es, s, before, is, -, -, -, hsplice, -, hmapped, hnames, -, -⟩ :=
    edits_keep_blocks wellMapped_example (some "c") (some exampleRecord)
      ⟨"eu-central-1", "~> 5.0", true⟩
  exact ⟨s, before, is, hsplice, hmapped, hnames⟩

end InstanceInventory.Document
