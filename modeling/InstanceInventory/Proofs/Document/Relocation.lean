import InstanceInventory.Document.Splice
import InstanceInventory.Proofs.Document.Block
import InstanceInventory.Proofs.Literal.Atom

/-! # Blocks in another document

* `Block.stripBlankEdges_text`: a block has no blank lines around it.
* `Block.lexed_relocated`: the pieces of a block are read back wherever the block stands on lines of
  its own.
-/

namespace InstanceInventory.Document
set_option autoImplicit false
open Literal
open Text (lastLine)

/-! ## Blank edges -/

theorem stripBlankEdges_ofList {cs first : List Char} {ls : List (List Char)}
    (hfirst : Text.lineChars cs = first :: ls) (hblank : Text.allBlank first = false)
    (hstale : Stale cs) : stripBlankEdges (String.ofList cs) = String.ofList cs := by
  obtain ⟨ms, hlast⟩ := Text.exists_lineChars_lastLine cs
  have hblank' : Text.allBlank (lastLine cs).reverse = false := by
    rw [Text.allBlank, List.all_reverse]
    exact hstale
  have hdrop : (Text.lineChars cs).dropWhile Text.allBlank = Text.lineChars cs := by
    rw [hfirst, List.dropWhile_cons_of_neg (by simp [hblank])]
  have hdrop' : (Text.lineChars cs).reverse.dropWhile Text.allBlank =
      (Text.lineChars cs).reverse := by
    rw [hlast, List.reverse_append, List.reverse_singleton, List.singleton_append,
      List.dropWhile_cons_of_neg (by simp [hblank'])]
  rw [stripBlankEdges, String.toList_ofList, hdrop, hdrop', List.reverse_reverse, Text.joinLines_ofList, Text.intercalate_lineChars]

/-- A text that begins with blanks and then something else has a first line that is not blank. -/
theorem exists_first_line {gaps : List Char} {c : Char} (hgaps : ∀ d ∈ gaps, isGap d = true)
    (hc : Text.isBlank c = false) (cs : List Char) :
    ∃ first ls, Text.lineChars (gaps ++ c :: cs) = first :: ls ∧ Text.allBlank first = false := by
  have hc' : '\n' ≠ c := by
    rintro rfl
    exact absurd hc (by decide)
  have hblank : ∀ ds, Text.allBlank (gaps ++ c :: ds) = false := by
    intro ds
    simp [Text.allBlank, hc]
  have hline : ∀ ds, '\n' ∉ ds → '\n' ∉ gaps ++ c :: ds := by
    intro ds hds
    simp [newline_not_mem_gaps hgaps, hc', hds]
  by_cases hmem : '\n' ∈ cs
  · obtain ⟨x, y, rfl, hx⟩ := List.eq_append_cons_of_mem hmem
    refine ⟨gaps ++ c :: x, Text.lineChars y, ?_, hblank x⟩
    rw [← Text.lineChars_cons_newline (hline x hx), List.append_assoc, List.cons_append]
  · exact ⟨gaps ++ c :: cs, [], Text.lineChars_of_not_mem (hline cs hmem), hblank cs⟩

/-- The lead of a block is blank, or it begins with blanks and then a comment. -/
theorem Leads.lead_cases {fresh : Bool} {junk lead : List Piece} (h : Leads fresh junk lead) :
    (∃ gaps : List Char, (∀ c ∈ gaps, isGap c = true) ∧ lead = gaps.map .gap) ∨
      ∃ (gaps ds : List Char) (d : Char) (ps : List Piece), (∀ c ∈ gaps, isGap c = true) ∧
        CommentChars d ds ∧ (∀ p ∈ ps, Spacer p) ∧
        lead = gaps.map .gap ++ .token .comment d ds :: ps := by
  induction h with
  | @blank gaps blank => exact .inl ⟨gaps, blank, rfl⟩
  | @comment gaps ds d ps blank chars rest => exact .inr ⟨gaps, ds, d, ps, blank, chars, rest, rfl⟩
  | bare => exact .inl ⟨[], (fun _ hc => nomatch hc), rfl⟩
  | skipGap _ _ ih => exact ih
  | skipComment _ _ ih => exact ih
  | newline _ ih => exact ih
  | blankLine _ _ ih => exact ih

/-- A block begins with blanks and then something else. -/
theorem Block.Valid.head {b : Block} (h : b.Valid) :
    ∃ (gaps : List Char) (c : Char), (∀ d ∈ gaps, isGap d = true) ∧ Text.isBlank c = false ∧
      ∃ cs, charsOf b.kept = gaps ++ c :: cs := by
  rcases h.leads.lead_cases with ⟨gaps, hgaps, hlead⟩ | ⟨gaps, ds, d, ps, hgaps, chars, -, hlead⟩
  · refine ⟨gaps, b.core.head, hgaps, h.core.solid, ?_⟩
    rw [Block.kept, hlead, Core.pieces, Core.openPieces, charsOf_append, charsOf_gaps]
    exact ⟨_, rfl⟩
  · have hd : Text.isBlank d = false := by
      rcases chars.head with rfl | rfl <;> decide
    refine ⟨gaps, d, hgaps, hd, ?_⟩
    rw [Block.kept, hlead, List.append_assoc, charsOf_append, charsOf_gaps]
    exact ⟨_, rfl⟩

/-- A block has no blank lines around it. -/
theorem Block.stripBlankEdges_text {b : Block} (h : b.Valid) : stripBlankEdges b.text = b.text := by
  obtain ⟨gaps, c, hgaps, hc, cs, hkept⟩ := h.head
  obtain ⟨first, ls, hfirst, hblank⟩ := exists_first_line hgaps hc cs
  rw [← hkept] at hfirst
  exact stripBlankEdges_ofList hfirst hblank (h.stale_kept [])

/-! ## Reading a block back -/

theorem Tail.lexed {tail : List Piece} (h : Tail tail) (after : List Char) :
    Lexed ('\n' :: after) tail := by
  cases h with
  | none => exact .nil
  | @comment gaps ds d blank chars =>
    have hd : isGap d = false := by
      rcases chars.head with rfl | rfl <;> decide
    exact (lexed_gaps blank).append (.single hd fun line => chars.lexeme line after)

/-- The pieces of a block that are read back in one document are read back in another, before a
newline. -/
theorem Block.lexed_relocated {b : Block} (h : b.Valid) {before : List Char}
    (hlexed : Lexed before b.kept) (after : List Char) : Lexed ('\n' :: after) b.kept := by
  have e : b.kept = (b.lead ++ b.core.openPieces) ++
      .token .closeBrace '\x7d' [] :: (b.core.commaPieces ++ b.tail) := by
    simp [Block.kept, Core.pieces]
  rw [e] at hlexed ⊢
  have hleft : Lexed ('\x7d' :: (charsOf (b.core.commaPieces ++ b.tail) ++ '\n' :: after))
      (b.lead ++ b.core.openPieces) := hlexed.left.barrier barrier_closeBrace
  have hcomma : Lexed (charsOf b.tail ++ '\n' :: after) b.core.commaPieces := by
    rcases commaPieces_cases h.core with ⟨-, hcomma⟩ | ⟨gaps, -, hgaps, hcomma⟩
    · rw [hcomma]
      exact .nil
    · rw [hcomma]
      exact (lexed_gaps hgaps).append (.single rfl fun line => lexeme_mark rfl line _)
  exact hleft.append (.token rfl (fun line => lexeme_mark rfl line _)
    (hcomma.append (h.tail.lexed after)))

end InstanceInventory.Document
