import InstanceInventory.Document.Verify
import InstanceInventory.Proofs.Document.Edits
import InstanceInventory.Proofs.Document.Opening

/-! # Documents without a flaw

* `Arranges.searchEntry`: a block on lines of its own is found from the line of its key on.
* `Arranges.flaw?`: a document of such blocks with distinct keys has no flaw.
* `requireMap_rendered`: a rendered document has a map of instances.
-/

namespace InstanceInventory.Document
set_option autoImplicit false
open Literal

/-! ## Entries -/

/-- The entries of blocks are those of each block after the ones before it. -/
theorem exists_of_mem_entriesAfter {pre : List Char} {bs : List Block} {e : Entry}
    (h : e ∈ entriesAfter pre bs) :
    ∃ bs₁ b bs₂, bs = bs₁ ++ b :: bs₂ ∧
      e = b.entryAfter (pre ++ charsOf (bs₁.flatMap Block.pieces)) := by
  induction bs generalizing pre with
  | nil => cases h
  | cons b bs ih =>
    rcases List.mem_cons.1 h with rfl | h
    · exact ⟨[], b, bs, rfl, by simp⟩
    · obtain ⟨bs₁, c, bs₂, rfl, rfl⟩ := ih h
      exact ⟨b :: bs₁, c, bs₂, rfl, by simp⟩

/-! ## A block in a document -/

section Block

variable {text : String} {front trail back : List Piece} {bs₁ bs₂ : List Block} {b : Block}

/-- The pieces of a document before the lines of a block. -/
def piecesAbove (front : List Piece) (bs : List Block) : List Piece :=
  front ++ .token .openBrace '\x7b' [] :: bs.flatMap Block.pieces ++ [newlinePiece]

theorem charsOf_piecesAbove (front : List Piece) (bs : List Block) :
    charsOf (piecesAbove front bs) =
      openChars front ++ charsOf (bs.flatMap Block.pieces) ++ ['\n'] := by
  simp [piecesAbove, openChars, newlinePiece]

theorem docPieces_block (hjunk : b.junk = [newlinePiece]) :
    docPieces front (regionPieces (bs₁ ++ b :: bs₂) trail) back =
      docPieces (piecesAbove front bs₁ ++ b.headPieces) b.core.inside
        (b.core.commaPieces ++ b.tail ++ regionPieces bs₂ trail ++
          .token .closeBrace '\x7d' [] :: back) := by
  simp [docPieces, regionPieces, Block.pieces, Block.kept, Core.pieces, Core.openPieces_eq,
    Block.headPieces, hjunk, piecesAbove]

/-- The key of a block stands on its first line. -/
theorem keyLine_entryAfter (front : List Piece) (bs₁ : List Block)
    (hjunk : b.junk = [newlinePiece]) (hhead : b.Headed) :
    (b.entryAfter (openChars front ++ charsOf (bs₁.flatMap Block.pieces))).keyLine =
      lineAfterAll 0 (charsOf (piecesAbove front bs₁)) := by
  have hlead : '\n' ∉ charsOf b.lead := fun hmem => hhead.single (by
    rw [Block.headPieces, charsOf_append]
    exact List.mem_append_left _ hmem)
  have e : openChars front ++ charsOf (bs₁.flatMap Block.pieces) ++ charsOf (b.junk ++ b.lead) =
      charsOf (piecesAbove front bs₁) ++ charsOf b.lead := by
    simp [hjunk, charsOf_piecesAbove, newlinePiece]
  rw [Block.entryAfter, e, lineAfterAll_append, lineAfterAll_eq_self hlead]

theorem lineAfterAll_head (front : List Piece) (bs₁ : List Block) (hhead : b.Headed) :
    lineAfterAll 0 (charsOf (piecesAbove front bs₁ ++ b.headPieces)) =
      lineAfterAll 0 (charsOf (piecesAbove front bs₁)) := by
  rw [charsOf_append, lineAfterAll_append, lineAfterAll_eq_self hhead.single]

/-- The line of the key opens the record. -/
theorem lineSatisfies_head {inside after : List Char} (hhead : b.Headed)
    (hchars : text.toList = charsOf (piecesAbove front bs₁) ++
      (openChars b.headPieces ++ (inside ++ '\x7d' :: after))) {line : Nat}
    (hline : lineAfterAll 0 (charsOf (piecesAbove front bs₁)) = line) :
    lineSatisfies text (opensRecord b.key) line line = true := by
  have hsingle : '\n' ∉ openChars b.headPieces := by
    rw [openChars, List.mem_append, not_or]
    exact ⟨hhead.single, by decide⟩
  rw [charsOf_piecesAbove, List.append_assoc, List.singleton_append] at hchars
  rw [charsOf_piecesAbove, lineAfterAll_eq_count, Nat.zero_add] at hline
  obtain ⟨more, hmore⟩ := Text.exists_line_after hsingle
    (openChars front ++ charsOf (bs₁.flatMap Block.pieces)) (inside ++ '\x7d' :: after)
  rw [lineSatisfies, decide_eq_true (Nat.le_refl _), Bool.true_and, Text.lines,
    List.getElem?_map, ← hline, hchars, hmore, openChars, List.append_assoc]
  exact hhead.opens more

/-- No brace opens on the line of the key before that of the record. -/
theorem lineSatisfies_above (hhead : b.Headed) {t : Token}
    (ht : t ∈ tokensAfter [] (piecesAbove front bs₁ ++ b.headPieces))
    (hkind : t.kind = .openBrace) {line : Nat}
    (hline : lineAfterAll 0 (charsOf (piecesAbove front bs₁)) = line) :
    lineSatisfies text (opensRecord b.key) line t.line = false := by
  rw [tokensAfter_append] at ht
  rcases List.mem_append.1 ht with ht | ht
  · have hlt := line_lt_of_mem_tokensAfter ht (charsOf_piecesAbove front bs₁)
    rw [List.nil_append] at hlt
    rw [lineAfterAll_eq_count, Nat.zero_add] at hline
    rw [lineSatisfies, decide_eq_false (by omega), Bool.false_and]
  · have hmem : t.kind ∈ kindsOf b.headPieces := by
      rw [← map_kind_tokensAfter]
      exact List.mem_map_of_mem ht
    rw [hkind] at hmem
    exact absurd hmem hhead.flat

/-- A block is closed inside the region that holds it. -/
theorem stop_block_le (hjunk : b.junk = [newlinePiece]) :
    (regionAt (piecesAbove front bs₁ ++ b.headPieces) b.core.inside).stop ≤
      (regionAt front (regionPieces (bs₁ ++ b :: bs₂) trail)).stop := by
  have e : openChars front ++ charsOf (regionPieces (bs₁ ++ b :: bs₂) trail) =
      openChars (piecesAbove front bs₁ ++ b.headPieces) ++ charsOf b.core.inside ++
        '\x7d' :: charsOf (b.core.commaPieces ++ b.tail ++ regionPieces bs₂ trail) := by
    simp [regionPieces, Block.pieces, Block.kept, Core.pieces, Core.openPieces_eq,
      Block.headPieces, hjunk, charsOf_piecesAbove, openChars, newlinePiece]
  show lineAfterAll 0 (openChars (piecesAbove front bs₁ ++ b.headPieces) ++
      charsOf b.core.inside) ≤
    lineAfterAll 0 (openChars front ++ charsOf (regionPieces (bs₁ ++ b :: bs₂) trail))
  rw [e]
  generalize openChars (piecesAbove front bs₁ ++ b.headPieces) ++ charsOf b.core.inside = cs
  rw [lineAfterAll_append, lineAfterAll_eq_count (lineAfterAll 0 cs)]
  exact Nat.le_add_right _ _

/-- The block of an entry is found from the line of its key on, inside the map of instances. -/
theorem Arranges.searchEntry (h : Arranges text front (bs₁ ++ b :: bs₂) trail back)
    (hjunk : b.junk = [newlinePiece]) (hhead : b.Headed)
    (hnested : Nested (kindsOf b.core.inside)) :
    ∃ s, searchEntry text
        (b.entryAfter (openChars front ++ charsOf (bs₁.flatMap Block.pieces))) = .ok s ∧
      isBlockOf (regionAt front (regionPieces (bs₁ ++ b :: bs₂) trail))
        (b.entryAfter (openChars front ++ charsOf (bs₁.flatMap Block.pieces))) s = true := by
  have hentry := keyLine_entryAfter front bs₁ hjunk hhead
  have hline := lineAfterAll_head front bs₁ hhead
  generalize hkeyLine : lineAfterAll 0 (charsOf (piecesAbove front bs₁)) = keyLine at hentry hline
  have hchars : text.toList = charsOf (piecesAbove front bs₁) ++
      (openChars b.headPieces ++ (charsOf b.core.inside ++ '\x7d' ::
        charsOf (b.core.commaPieces ++ b.tail ++ regionPieces bs₂ trail ++
          .token .closeBrace '\x7d' [] :: back))) := by
    rw [h.written, String.toList_ofList, docPieces_block hjunk]
    simp [docPieces, openChars]
  refine ⟨.found (regionAt (piecesAbove front bs₁ ++ b.headPieces) b.core.inside), ?_, ?_⟩
  · rw [Document.searchEntry, hentry, locate_lines, searchText, h.tokenize]
    dsimp only
    rw [docPieces_block hjunk]
    refine congrArg Except.ok (searchTokens_docPieces
      (fun t ht hkind => lineSatisfies_above hhead ht hkind hkeyLine) ?_ hnested)
    rw [hline]
    exact lineSatisfies_head hhead hchars hkeyLine
  · rw [isBlockOf, hentry, Bool.and_eq_true, beq_iff_eq, decide_eq_true_eq]
    exact ⟨hline, stop_block_le hjunk⟩

end Block

/-! ## Documents -/

theorem unbalanced?_eq_none {text : String} {map : Region} {es : List Entry}
    (h : ∀ e ∈ es, ∃ s, searchEntry text e = .ok s ∧ isBlockOf map e s = true) :
    unbalanced? text map es = .ok none := by
  induction es with
  | nil => rfl
  | cons e es ih =>
    obtain ⟨s, hs, hblock⟩ := h e (List.mem_cons_self ..)
    rw [unbalanced?, hs]
    show (if isBlockOf map e s = true then unbalanced? text map es else _) = _
    rw [if_pos hblock, ih fun d hd => h d (List.mem_cons_of_mem e hd)]

theorem repeatedKeys_eq_nil {keys : List String} (h : keys.Nodup) : repeatedKeys keys = [] := by
  have hfilter : keys.filter (fun k => 1 < keys.count k) = [] := by
    refine List.filter_eq_nil_iff.2 fun k _ => ?_
    have := List.nodup_iff_count.1 h k
    simp
    omega
  rw [repeatedKeys, hfilter]
  simp

/-- A document of blocks that open on the lines of their keys, which are distinct, has no flaw. -/
theorem Arranges.flaw? {text : String} {front trail back : List Piece} {bs : List Block}
    (h : Arranges text front bs trail back) (hjunk : ∀ b ∈ bs, b.junk = [newlinePiece])
    (hhead : ∀ b ∈ bs, b.Headed) (hkeys : (bs.map Block.key).Nodup) :
    flaw? text (bs.map Block.key) = .ok none := by
  have hbalanced : unbalanced? text (regionAt front (regionPieces bs trail))
      (entriesAfter (openChars front) bs) = .ok none := by
    refine unbalanced?_eq_none fun e he => ?_
    obtain ⟨bs₁, b, bs₂, rfl, rfl⟩ := exists_of_mem_entriesAfter he
    have hmem : b ∈ bs₁ ++ b :: bs₂ := by simp
    exact h.searchEntry (hjunk b hmem) (hhead b hmem) (h.arranged.valid b hmem).core.inside
  have hheld := map_key_of_shows h.shows
  rw [Document.flaw?, h.mapRegion?]
  show (Document.entries text _ >>= _) = _
  rw [h.entries]
  show (if (!(repeatedKeys ((entriesAfter (openChars front) bs).map Entry.key)).isEmpty) = true
    then _ else _) = _
  rw [hheld, repeatedKeys_eq_nil hkeys, hbalanced]
  simp [bind, Except.bind, pure, Except.pure]

/-- A rendered document has a map of instances. -/
theorem requireMap_render (o : Options) {bs : List Block} (h : ∀ b ∈ bs, b.Settled) :
    ∃ r, requireMap (render o (bs.map Block.text)) = .ok (.ok (some r)) := by
  obtain ⟨lines, back, -, harranges⟩ := arranges_render o h
  obtain ⟨hopens, -⟩ := lineSatisfies_front (toList_render o (bs.map Block.text))
  have hline : ((Text.lines (render o (bs.map Block.text))).findIdx? opensInstanceMap).isSome := by
    rw [lineSatisfies, Bool.and_eq_true, Option.any_eq_true] at hopens
    obtain ⟨-, line, hline, hmap⟩ := hopens
    rw [List.findIdx?_isSome, List.any_eq_true]
    exact ⟨line, List.mem_of_getElem? hline, hmap⟩
  obtain ⟨n, hn⟩ := Option.isSome_iff_exists.1 hline
  refine ⟨regionAt (lines ++ mapName) (regionPieces (bs.map Block.onLines) closeTrail), ?_⟩
  rw [requireMap, harranges.found]
  simp only [hn, Search.region?]

theorem flaw?_render (o : Options) {bs : List Block} (h : ∀ b ∈ bs, b.Settled)
    (hhead : ∀ b ∈ bs, b.Headed) (hkeys : (bs.map Block.key).Nodup) :
    flaw? (render o (bs.map Block.text)) (bs.map Block.key) = .ok none := by
  obtain ⟨lines, back, -, harranges⟩ := arranges_render o h
  have hnames : (bs.map Block.onLines).map Block.key = bs.map Block.key := by
    rw [List.map_map]
    rfl
  rw [← hnames] at hkeys ⊢
  refine harranges.flaw? (fun b hb => ?_) (fun b hb => ?_) hkeys
  · obtain ⟨c, -, rfl⟩ := List.mem_map.1 hb
    rfl
  · obtain ⟨c, hc, rfl⟩ := List.mem_map.1 hb
    exact ⟨(hhead c hc).single, (hhead c hc).flat, (hhead c hc).opens⟩

end InstanceInventory.Document
