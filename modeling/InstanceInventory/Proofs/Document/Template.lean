import InstanceInventory.Document.Template
import InstanceInventory.Proofs.Document.Arrangement
import InstanceInventory.Proofs.Literal.Line

/-! # Rendered documents

* `ReadsWhole`: lines that can be split into tokens, whatever stands on the next lines.
* `FrontLine`: such a line before the map of instances that does not open it.
* `Block.onLines`: a block on lines of its own.
* `arranges_render`: a rendered document is the blocks that it is rendered from.
-/

namespace InstanceInventory.Document
set_option autoImplicit false
open Literal
open Text (closedChars)

/-! ## Lines -/

/-- Lines that can be split into tokens, whatever stands on the next lines. -/
def ReadsWhole (ls : List String) : Prop :=
  ∀ l ∈ ls, ∀ after, Reads l.toList ('\n' :: after) fun _ => True

theorem readsWhole_nil : ReadsWhole [] := fun _ h => nomatch h

theorem ReadsWhole.cons {cs : List Char} {ls : List String} (h : lineReads 0 cs = true)
    (rest : ReadsWhole ls) : ReadsWhole (String.ofList cs :: ls) := by
  refine List.forall_mem_cons.2 ⟨fun after => ?_, rest⟩
  rw [String.toList_ofList]
  exact reads_of_lineReads h after

theorem readsWhole_resources (o : Options) : ReadsWhole (resources o) := by
  obtain ⟨region, version, protects⟩ := o
  cases protects
  all_goals
    simp only [resources, Bool.false_eq_true, if_false, if_true, String.reduceAppend]
    repeat' refine .cons (by decide +kernel) ?_
    exact readsWhole_nil

/-- A line before the map of instances that can be split into tokens and does not open the map. -/
structure FrontLine (l : String) : Prop where
  reads : ∀ after, Reads l.toList ('\n' :: after) fun _ => True
  single : '\n' ∉ l.toList
  closed : opensInstanceMap l = false

theorem FrontLine.constant {cs : List Char} (h : lineReads 0 cs = true)
    (hsingle : cs.contains '\n' = false)
    (hclosed : opensBlockChars ['i', 'n', 's', 't', 'a', 'n', 'c', 'e', 's'] cs = false) :
    FrontLine (String.ofList cs) where
  reads after := by
    rw [String.toList_ofList]
    exact reads_of_lineReads h after
  single := by
    rw [String.toList_ofList]
    simpa using hsingle
  closed := by
    have e : "instances".toList = ['i', 'n', 's', 't', 'a', 'n', 'c', 'e', 's'] :=
      String.toList_ofList
    rw [opensInstanceMap, e, String.toList_ofList]
    exact hclosed

/-- A setting before the map of instances: a name that is not that of the map, and a string. -/
theorem FrontLine.setting {cs : List Char} (hcalm : cs.all isCalm = true) (s : String)
    (hclosed : ∀ ds, opensBlockChars ['i', 'n', 's', 't', 'a', 'n', 'c', 'e', 's'] (cs ++ ds) = false) :
    FrontLine (String.ofList cs ++ quoteString s) where
  reads after := by
    rw [String.toList_append, String.toList_ofList, quoteString, String.toList_ofList]
    refine .join (reads_calm barrier_quote (by decide) (by decide) (List.all_eq_true.1 hcalm) _) ?_
    have hnil : Writes [] ('\n' :: after) fun _ => True := .nil trivial
    have hquoted : Writes (stringChars s ++ []) ('\n' :: after) fun _ => True :=
      .quoted s hnil fun _ _ _ _ => trivial
    rw [List.append_nil] at hquoted
    exact hquoted.reads
  single := by
    rw [String.toList_append, String.toList_ofList, quoteString, String.toList_ofList,
      List.mem_append, not_or]
    constructor
    · intro hmem
      exact absurd (List.all_eq_true.1 hcalm _ hmem) (by decide)
    · intro hmem
      exact absurd (visible_stringChars s _ hmem) (by decide)
  closed := by
    have e : "instances".toList = ['i', 'n', 's', 't', 'a', 'n', 'c', 'e', 's'] :=
      String.toList_ofList
    rw [opensInstanceMap, e, String.toList_append, String.toList_ofList]
    exact hclosed _

/-- The lines before the one that opens the map of instances. -/
def frontLines (o : Options) : List String :=
  (preamble o).dropLast

theorem preamble_eq (o : Options) :
    preamble o = frontLines o ++ [String.ofList
      [' ', ' ', 'i', 'n', 's', 't', 'a', 'n', 'c', 'e', 's', ' ', '=', ' ', '\x7b']] := rfl

theorem frontLine_of_mem (o : Options) : ∀ l ∈ frontLines o, FrontLine l := by
  simp only [frontLines, preamble, List.dropLast_cons_of_ne_nil, ne_eq, reduceCtorEq,
    not_false_eq_true, List.dropLast_singleton, List.forall_mem_cons]
  refine ⟨?_, ?_, ?_, ?_, ?_, ?_, ?_, ?_, ?_, ?_, ?_, ?_, ?_, ?_, ?_, ?_, fun _ h => nomatch h⟩
  all_goals first
    | exact .setting (by decide +kernel) _ fun _ => rfl
    | exact .constant (by decide +kernel) (by decide +kernel) (by decide +kernel)

/-! ## Blocks on lines of their own -/

/-- A block that begins a line. -/
def Block.onLines (b : Block) : Block :=
  { b with junk := [newlinePiece] }

/-- A block that is read back before any text on further lines. -/
structure Block.Settled (b : Block) : Prop where
  valid : b.Valid
  lexed : ∀ after, Lexed ('\n' :: after) b.kept

/-- What stands between the last block and the brace that closes the map. -/
def closeTrail : List Piece :=
  [newlinePiece, .gap ' ', .gap ' ']

theorem Block.Settled.onLines {b : Block} (h : b.Settled) : b.onLines.Valid where
  leads := by
    rcases h.valid.leads.lead_cases with ⟨gaps, hgaps, hlead⟩ | ⟨gaps, ds, d, ps, hgaps, chars, hps, hlead⟩
    · exact .newline (by rw [Block.onLines, hlead]; exact .blank hgaps)
    · exact .newline (by rw [Block.onLines, hlead]; exact .comment hgaps chars hps)
  core := h.valid.core
  tail := h.valid.tail

theorem head?_regionPieces_onLines (bs : List Block) :
    (kindsOf (regionPieces (bs.map Block.onLines) closeTrail)).head? = some .newline := by
  cases bs <;> rfl

/-- Blocks on lines of their own are met one after another. -/
theorem arranged_onLines {bs : List Block} (h : ∀ b ∈ bs, b.Settled) :
    Arranged (bs.map Block.onLines) closeTrail := by
  induction bs with
  | nil =>
    refine .nil fun p hp => ?_
    simp only [closeTrail, List.mem_cons, List.not_mem_nil, or_false] at hp
    rcases hp with rfl | rfl | rfl
    · exact .newline
    · exact .gap rfl
    · exact .gap rfl
  | cons b bs ih =>
    refine .cons (h b (List.mem_cons_self ..)).onLines (fun _ k hk => ?_)
      (ih fun c hc => h c (List.mem_cons_of_mem b hc))
    rw [head?_regionPieces_onLines] at hk
    cases hk
    exact ⟨by simp, fun _ => rfl⟩

theorem charsOf_onLines (bs : List Block) (after : List Char) :
    charsOf (regionPieces (bs.map Block.onLines) closeTrail) ++ after =
      '\n' :: (closedChars (bs.map fun b => charsOf b.kept) ++ ' ' :: ' ' :: after) := by
  induction bs with
  | nil => rfl
  | cons b bs ih =>
    have e : regionPieces ((b :: bs).map Block.onLines) closeTrail =
        newlinePiece :: (b.kept ++ regionPieces (bs.map Block.onLines) closeTrail) := by
      simp [regionPieces, Block.pieces, Block.onLines, Block.kept]
    rw [e, newlinePiece, charsOf_token, charsOf_append, List.nil_append, List.cons_append,
      List.append_assoc, ih, List.map_cons, Text.closedChars_cons]
    simp

/-- Blocks on lines of their own are read back. -/
theorem lexed_onLines {bs : List Block} (h : ∀ b ∈ bs, b.Settled) (after : List Char) :
    Lexed ('\x7d' :: after) (regionPieces (bs.map Block.onLines) closeTrail) := by
  induction bs with
  | nil =>
    exact .token rfl (fun line => lexeme_newline line _) (.gap rfl (.gap rfl .nil))
  | cons b bs ih =>
    have e : regionPieces ((b :: bs).map Block.onLines) closeTrail =
        newlinePiece :: (b.kept ++ regionPieces (bs.map Block.onLines) closeTrail) := by
      simp [regionPieces, Block.pieces, Block.onLines, Block.kept]
    rw [e]
    refine .token rfl (fun line => lexeme_newline line _) (.append ?_
      (ih fun c hc => h c (List.mem_cons_of_mem b hc)))
    rw [charsOf_onLines]
    exact (h b (List.mem_cons_self ..)).lexed _

/-! ## The document -/

theorem toList_closeLines (ls : List String) :
    (closeLines ls).toList = closedChars (ls.map String.toList) := by
  rw [closeLines, String.toList_join, closedChars, List.flatMap_map, List.flatMap_map]
  congr 1
  funext l
  rw [String.toList_append]
  rfl

/-- The pieces before the brace on the line that opens the map of instances. -/
def mapName : List Piece :=
  [.gap ' ', .gap ' ', .token .ident 'i' ['n', 's', 't', 'a', 'n', 'c', 'e', 's'], .gap ' ',
    .token .equals '=' [], .gap ' ']

theorem lexed_mapName (after : List Char) : Lexed ('\x7b' :: after) mapName := by
  refine .gap rfl (.gap rfl (.token rfl (fun line => ?_) (.gap rfl (.token rfl (fun line => ?_)
    (.gap rfl .nil)))))
  · exact lexeme_name rfl (List.all_eq_true.1 rfl) line (Delimited.cons rfl _)
  · exact lexeme_equals line _

/-- The characters of a rendered document. -/
theorem toList_render (o : Options) (blocks : List String) :
    (render o blocks).toList = closedChars ((frontLines o).map String.toList) ++ (charsOf mapName ++
      '\x7b' :: '\n' :: (closedChars (blocks.map String.toList) ++ ' ' :: ' ' :: '\x7d' :: '\n' ::
        '\x7d' :: '\n' :: closedChars ((resources o).map String.toList))) := by
  have hclose : closedChars (mapClose.map String.toList) =
      [' ', ' ', '\x7d', '\n', '\x7d', '\n'] := by
    have e : "  \x7d".toList = [' ', ' ', '\x7d'] := String.toList_ofList
    have e' : "\x7d".toList = ['\x7d'] := String.toList_ofList
    simp [mapClose, closedChars, e, e']
  rw [render, String.toList_append, String.toList_append, String.toList_append,
    toList_closeLines, toList_closeLines, toList_closeLines, toList_closeLines, preamble_eq,
    List.map_append, Text.closedChars_append, hclose, List.map_singleton, String.toList_ofList,
    Text.closedChars_cons]
  simp [mapName]

theorem reads_closeLines {ls : List String} (h : ReadsWhole ls) (after : List Char) :
    Reads (closedChars (ls.map String.toList)) after fun _ => True :=
  reads_closed after fun l hl after' => by
    obtain ⟨s, hs, rfl⟩ := List.mem_map.1 hl
    exact h s hs after'

/-- What stands after the map in a rendered document. -/
theorem reads_back (o : Options) :
    Reads ('\n' :: '\x7d' :: '\n' :: closedChars ((resources o).map String.toList)) [] fun _ => True :=
  .newline (.token '\x7d' [] rfl (fun line => lexeme_mark rfl line _)
    (.newline (reads_closeLines (readsWhole_resources o) [])) fun _ _ _ _ _ => trivial)

theorem frontLines_single (o : Options) : ∀ l ∈ (frontLines o).map String.toList, '\n' ∉ l := by
  intro l hl
  obtain ⟨s, hs, rfl⟩ := List.mem_map.1 hl
  exact (frontLine_of_mem o s hs).single

theorem reads_front (o : Options) (after : List Char) :
    Reads (closedChars ((frontLines o).map String.toList)) after fun _ => True :=
  reads_closeLines (fun l hl => (frontLine_of_mem o l hl).reads) after

/-- The lines before the map of instances end with a newline. -/
theorem exists_front_newline (o : Options) :
    ∃ cs, closedChars ((frontLines o).map String.toList) = cs ++ ['\n'] :=
  Text.exists_closedChars_newline (by simp [frontLines, preamble])

/-- The lines of a document that begins as a rendered one does. -/
theorem lineSatisfies_front {o : Options} {text : String} {after : List Char}
    (h : text.toList = closedChars ((frontLines o).map String.toList) ++ (charsOf mapName ++
      '\x7b' :: '\n' :: after)) :
    lineSatisfies text opensInstanceMap 0 (frontLines o).length = true ∧
      ∀ n < (frontLines o).length, lineSatisfies text opensInstanceMap 0 n = false := by
  have hopens : '\n' ∉ charsOf mapName ++ ['\x7b'] := by decide
  have e : charsOf mapName ++ '\x7b' :: '\n' :: after =
      charsOf mapName ++ ['\x7b'] ++ '\n' :: after := by simp
  have hlines : Text.lines text = frontLines o ++
      String.ofList (charsOf mapName ++ ['\x7b']) :: (Text.lineChars after).map String.ofList := by
    have hid : ((frontLines o).map String.toList).map String.ofList = frontLines o := by
      rw [List.map_map]
      exact List.map_id'' (fun s => String.ofList_toList) _
    rw [Text.lines, h, e, Text.lineChars_closed (frontLines_single o), Text.lineChars_cons_newline hopens,
      List.map_append, List.map_cons, hid]
  constructor
  · have haccepts : opensInstanceMap (String.ofList (charsOf mapName ++ ['\x7b'])) = true := by
      have e : "instances".toList = ['i', 'n', 's', 't', 'a', 'n', 'c', 'e', 's'] :=
        String.toList_ofList
      rw [opensInstanceMap, e, String.toList_ofList]
      decide +kernel
    rw [lineSatisfies, hlines, List.getElem?_append_right (Nat.le_refl _), Nat.sub_self,
      List.getElem?_cons_zero, Option.any_some, haccepts]
    rfl
  · intro n hn
    have hclosed := (frontLine_of_mem o _ (List.getElem_mem hn)).closed
    rw [lineSatisfies, hlines, List.getElem?_append_left hn, List.getElem?_eq_getElem hn,
      Option.any_some, hclosed, Bool.and_false]

/-- A rendered document is the blocks that it is rendered from, each on lines of its own. -/
theorem arranges_render (o : Options) {bs : List Block} (h : ∀ b ∈ bs, b.Settled) :
    ∃ lines back, charsOf lines = closedChars ((frontLines o).map String.toList) ∧
      Arranges (render o (bs.map Block.text)) (lines ++ mapName) (bs.map Block.onLines) closeTrail
        back := by
  obtain ⟨back, hback, hlexedBack, -⟩ := reads_back o
  obtain ⟨lines, hlines, hlexedLines, -⟩ := reads_front o
    (charsOf mapName ++ '\x7b' :: (charsOf (regionPieces (bs.map Block.onLines) closeTrail) ++
      '\x7d' :: charsOf back))
  have harranged := arranged_onLines h
  have hblocks : (bs.map Block.text).map String.toList = bs.map fun b => charsOf b.kept := by
    rw [List.map_map]
    exact List.map_congr_left fun b _ => String.toList_ofList
  have hchars : (render o (bs.map Block.text)).toList =
      charsOf (docPieces (lines ++ mapName) (regionPieces (bs.map Block.onLines) closeTrail) back) := by
    rw [toList_render, hblocks, charsOf_docPieces, charsOf_onLines, hback, openChars, charsOf_append,
      hlines]
    simp [closedChars]
  have hlexed : Lexed [] (docPieces (lines ++ mapName)
      (regionPieces (bs.map Block.onLines) closeTrail) back) := by
    refine .append (.append (by simpa using hlexedLines) (lexed_mapName _)) ?_
    refine .token rfl (fun line => lexeme_mark rfl line _) (.append ?_
      (.token rfl (fun line => lexeme_mark rfl line _) hlexedBack))
    exact lexed_onLines h _
  have hwritten : render o (bs.map Block.text) =
      String.ofList (charsOf (docPieces (lines ++ mapName)
        (regionPieces (bs.map Block.onLines) closeTrail) back)) := by
    rw [← hchars, String.ofList_toList]
  obtain ⟨haccepts, hpasses⟩ := lineSatisfies_front (toList_render o (bs.map Block.text))
  have hline : lineAfterAll 0 (charsOf (lines ++ mapName)) = (frontLines o).length := by
    rw [charsOf_append, lineAfterAll_append, lineAfterAll_eq_self (by decide : '\n' ∉ charsOf mapName),
      hlines, lineAfterAll_eq_count, Text.count_closedChars (frontLines_single o), List.length_map, Nat.zero_add]
  have hfront : ∀ t ∈ tokensAfter [] (lines ++ mapName), t.kind = .openBrace →
      lineSatisfies (render o (bs.map Block.text)) opensInstanceMap 0 t.line = false := by
    intro t ht hkind
    rw [tokensAfter_append] at ht
    rcases List.mem_append.1 ht with ht | ht
    · obtain ⟨cs, hcs⟩ := exists_front_newline o
      have hlt := line_lt_of_mem_tokensAfter ht (hlines.trans hcs)
      rw [List.nil_append, hlines, Text.count_closedChars (frontLines_single o),
        List.length_map] at hlt
      exact hpasses t.line hlt
    · have hmem : t.kind ∈ kindsOf mapName := by
        rw [← map_kind_tokensAfter]
        exact List.mem_map_of_mem ht
      rw [hkind] at hmem
      exact absurd hmem (by decide)
  refine ⟨lines, back, hlines, hwritten, hlexed, ?_, harranged⟩
  have htokens : tokenize (render o (bs.map Block.text)) = .ok (tokensAfter [] (docPieces
      (lines ++ mapName) (regionPieces (bs.map Block.onLines) closeTrail) back)) := by
    rw [hwritten, tokenize_charsOf hlexed]
    rfl
  rw [findMap, locate_lines, searchText, htokens]
  dsimp only
  rw [searchTokens_docPieces hfront (by rw [hline]; exact haccepts) harranged.nested]

end InstanceInventory.Document
