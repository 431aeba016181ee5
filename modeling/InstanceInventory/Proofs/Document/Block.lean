import InstanceInventory.Proofs.Document.Nesting
import InstanceInventory.Proofs.Literal.Lookahead
import InstanceInventory.Proofs.Text.Lines

/-! # Blocks among pieces

* `Leads`: what stands before a key is split where the block of the key begins.
* `Core`, `Tail`: the key with its block and its comma, and a comment that follows directly.
* `Arranged`: blocks one after another, as the scan of a region can meet them.
* `itemsFrom_arranged`: the scan of blocks finds their entries, each with the places of its block.
-/

namespace InstanceInventory.Document
set_option autoImplicit false
open Literal
open Text (lastLine lastLine_append lastLine_append_newline)

/-! ## The last line -/

/-- Whether something that is not blank stands on the last line of a text. -/
def Stale (cs : List Char) : Prop :=
  Text.allBlank (lastLine cs) = false

theorem stale_append_solid (cs : List Char) {ds : List Char} (h : Solid ds) : Stale (cs ++ ds) := by
  obtain ⟨x, d, y, rfl, hd, hy⟩ := h
  have e : cs ++ (x ++ d :: y) = cs ++ x ++ (d :: y) := by simp
  have hnewline : '\n' ∉ d :: y := by
    rw [List.mem_cons, not_or]
    refine ⟨?_, hy⟩
    rintro rfl
    exact absurd hd (by decide)
  rw [Stale, e, lastLine_append hnewline, List.reverse_cons, Text.allBlank]
  simp [hd]

theorem Stale.append {cs ds : List Char} (h : Stale cs) (hd : '\n' ∉ ds) : Stale (cs ++ ds) := by
  rw [Stale, Text.allBlank] at h ⊢
  rw [lastLine_append hd, List.all_append, h, Bool.and_false]

theorem newline_not_mem_gaps {cs : List Char} (h : ∀ c ∈ cs, isGap c = true) : '\n' ∉ cs :=
  fun hmem => absurd (h _ hmem) (by decide)

theorem isBlank_of_isGap {c : Char} (h : isGap c = true) : Text.isBlank c = true := by
  simp only [isGap, Bool.or_eq_true, beq_iff_eq] at h
  rcases h with (rfl | rfl) | rfl <;> decide

theorem lineBefore_append (pre after : List Char) :
    lineBefore (pre ++ after) pre.length = lastLine pre := by
  rw [lineBefore, List.take_left, lastLine]

theorem firstOnLine_append (pre after : List Char) :
    firstOnLine (pre ++ after) pre.length = Text.allBlank (lastLine pre) := by
  rw [firstOnLine, lineBefore_append]

theorem lineStart_append (pre after : List Char) :
    lineStart (pre ++ after) pre.length = pre.length - (lastLine pre).length := by
  rw [lineStart, lineBefore_append]

/-! ## Tokens after a text -/

def tokensAfter (pre : List Char) (ps : List Piece) : List Token :=
  placed pre.length (lineAfterAll 0 pre) ps

@[simp] theorem tokensAfter_nil (pre : List Char) : tokensAfter pre [] = [] := rfl

theorem tokensAfter_append (pre : List Char) (ps qs : List Piece) :
    tokensAfter pre (ps ++ qs) = tokensAfter pre ps ++ tokensAfter (pre ++ charsOf ps) qs := by
  rw [tokensAfter, placed_append, tokensAfter, tokensAfter, List.length_append,
    lineAfterAll_append]

theorem tokensAfter_gaps (pre : List Char) (cs : List Char) :
    tokensAfter pre (cs.map .gap) = [] :=
  placed_gaps _ _ cs

/-- The token of a piece that stands after a text. -/
def tokenAfter (pre : List Char) (k : Token.Kind) (c : Char) (cs : List Char) : Token :=
  ⟨k, String.ofList (c :: cs), pre.length, pre.length + 1 + cs.length, lineAfterAll 0 pre⟩

theorem tokensAfter_cons (pre : List Char) (k : Token.Kind) (c : Char) (cs : List Char)
    (ps : List Piece) :
    tokensAfter pre (.token k c cs :: ps) =
      tokenAfter pre k c cs :: tokensAfter (pre ++ c :: cs) ps := by
  have e : .token k c cs :: ps = [.token k c cs] ++ ps := rfl
  rw [e, tokensAfter_append]
  simp [tokensAfter, placed, tokenAfter]

def kindsOf : List Piece → List Token.Kind
  | [] => []
  | .gap _ :: ps => kindsOf ps
  | .token k _ _ :: ps => k :: kindsOf ps

theorem map_kind_placed (place line : Nat) (ps : List Piece) :
    (placed place line ps).map Token.kind = kindsOf ps := by
  induction ps generalizing place line with
  | nil => rfl
  | cons p ps ih =>
    cases p with
    | gap c => exact ih _ _
    | token k c cs => rw [placed, List.map_cons, ih, kindsOf]

theorem map_kind_tokensAfter (pre : List Char) (ps : List Piece) :
    (tokensAfter pre ps).map Token.kind = kindsOf ps :=
  map_kind_placed _ _ ps

theorem kindsOf_append (ps qs : List Piece) : kindsOf (ps ++ qs) = kindsOf ps ++ kindsOf qs := by
  rw [← map_kind_tokensAfter [] (ps ++ qs), tokensAfter_append, List.map_append,
    map_kind_tokensAfter, map_kind_tokensAfter]

@[simp] theorem kindsOf_gaps (cs : List Char) : kindsOf (cs.map .gap) = [] := by
  rw [← map_kind_tokensAfter [], tokensAfter_gaps]
  rfl

/-! ## Spacers -/

def newlinePiece : Piece := .token .newline '\n' []

/-- A piece that may stand between items: a character between tokens, a newline or a comment. -/
inductive Spacer : Piece → Prop
  | gap {c : Char} (blank : isGap c = true) : Spacer (.gap c)
  | newline : Spacer newlinePiece
  | comment {c : Char} {cs : List Char} (chars : CommentChars c cs) :
    Spacer (.token .comment c cs)

/-- What stands before a key, split where the block of the key begins: at the line of the first
comment that is first on its line, else at the line of the key, unless the key itself is not first
on its line. The flag tells whether nothing stands on the line so far. -/
inductive Leads : Bool → List Piece → List Piece → Prop
  | blank {cs : List Char} (blank : ∀ c ∈ cs, isGap c = true) : Leads true [] (cs.map .gap)
  | comment {cs ds : List Char} {d : Char} {ps : List Piece} (blank : ∀ c ∈ cs, isGap c = true)
    (chars : CommentChars d ds) (rest : ∀ p ∈ ps, Spacer p) :
    Leads true [] (cs.map .gap ++ .token .comment d ds :: ps)
  | bare : Leads false [] []
  | skipGap {c : Char} {junk lead : List Piece} (blank : isGap c = true)
    (rest : Leads false junk lead) : Leads false (.gap c :: junk) lead
  | skipComment {d : Char} {ds : List Char} {junk lead : List Piece} (chars : CommentChars d ds)
    (rest : Leads false junk lead) : Leads false (.token .comment d ds :: junk) lead
  | newline {junk lead : List Piece} (rest : Leads true junk lead) :
    Leads false (newlinePiece :: junk) lead
  | blankLine {cs : List Char} {junk lead : List Piece} (blank : ∀ c ∈ cs, isGap c = true)
    (rest : Leads true junk lead) : Leads true (cs.map .gap ++ newlinePiece :: junk) lead

/-- The lines before a place are as fresh or stale as the flag says. -/
def Fresh (fresh : Bool) (pre : List Char) : Prop :=
  if fresh then lastLine pre = [] else Stale pre

theorem fresh_append_newline (pre : List Char) : Fresh true (pre ++ ['\n']) :=
  lastLine_append_newline pre

theorem fresh_append_gaps_newline (pre cs : List Char) : Fresh true (pre ++ cs ++ ['\n']) :=
  lastLine_append_newline (pre ++ cs)

theorem Fresh.allBlank_gaps {pre cs : List Char} (h : Fresh true pre)
    (hcs : ∀ c ∈ cs, isGap c = true) : Text.allBlank (lastLine (pre ++ cs)) = true := by
  have hpre : lastLine pre = [] := h
  rw [lastLine_append (newline_not_mem_gaps hcs), hpre, List.append_nil, Text.allBlank,
    List.all_eq_true]
  exact fun c hc => isBlank_of_isGap (hcs c (List.mem_reverse.1 hc))

theorem Fresh.length_lastLine {pre cs : List Char} (h : Fresh true pre)
    (hcs : ∀ c ∈ cs, isGap c = true) : (lastLine (pre ++ cs)).length = cs.length := by
  have hpre : lastLine pre = [] := h
  rw [lastLine_append (newline_not_mem_gaps hcs), hpre, List.append_nil, List.length_reverse]

/-! ## The scan before a key -/

theorem itemsFrom_newline {cs : List Char} {t : Token} (ht : t.kind = .newline)
    (comment : Option Nat) (ts : List Token) :
    itemsFrom cs comment 0 (t :: ts) = itemsFrom cs comment 0 ts := by
  rw [itemsFrom.eq_def cs comment 0 (t :: ts)]
  simp only [ht]

theorem itemsFrom_comment {cs : List Char} {t : Token} (ht : t.kind = .comment)
    (comment : Option Nat) (ts : List Token) :
    itemsFrom cs comment 0 (t :: ts) = itemsFrom cs (commentStart cs comment t) 0 ts := by
  rw [itemsFrom.eq_def cs comment 0 (t :: ts)]
  simp only [ht]

/-- Spacers after a comment that begins a block leave the beginning where it is. -/
theorem itemsFrom_spacers (cs : List Char) (place : Nat) {ps : List Piece}
    (h : ∀ p ∈ ps, Spacer p) (pre : List Char) (ts : List Token) :
    itemsFrom cs (some place) 0 (tokensAfter pre ps ++ ts) = itemsFrom cs (some place) 0 ts := by
  induction ps generalizing pre with
  | nil => rfl
  | cons p ps ih =>
    have hrest := fun q hq => h q (List.mem_cons_of_mem p hq)
    cases h p (List.mem_cons_self ..) with
    | @gap c blank =>
      have e : Piece.gap c :: ps = [c].map .gap ++ ps := rfl
      rw [e, tokensAfter_append, tokensAfter_gaps, List.nil_append]
      exact ih hrest _
    | newline =>
      rw [newlinePiece, tokensAfter_cons, List.cons_append, itemsFrom_newline rfl]
      exact ih hrest _
    | comment chars =>
      rw [tokensAfter_cons, List.cons_append, itemsFrom_comment rfl]
      exact ih hrest _

theorem commentStart_stale {cs pre after : List Char} (hcs : cs = pre ++ after) (hpre : Stale pre)
    (c : Char) (ds : List Char) :
    commentStart cs none (tokenAfter pre .comment c ds) = none := by
  have hfirst : firstOnLine cs pre.length = false := by
    rw [hcs, firstOnLine_append]
    exact hpre
  simp [commentStart, tokenAfter, hfirst]

theorem commentStart_fresh {cs pre gaps after : List Char} (hcs : cs = pre ++ gaps ++ after)
    (hpre : Fresh true pre) (hgaps : ∀ c ∈ gaps, isGap c = true) (c : Char) (ds : List Char) :
    commentStart cs none (tokenAfter (pre ++ gaps) .comment c ds) = some pre.length := by
  have hfirst : firstOnLine cs (pre ++ gaps).length = true := by
    rw [hcs, firstOnLine_append]
    exact hpre.allBlank_gaps hgaps
  have hstart : lineStart cs (pre ++ gaps).length = pre.length := by
    rw [hcs, lineStart_append, hpre.length_lastLine hgaps, List.length_append]
    omega
  simp only [commentStart, tokenAfter, hfirst, hstart]
  rfl

/-- The scan of what stands before a key finds where the block of the key begins. -/
theorem itemsFrom_leads {fresh : Bool} {junk lead : List Piece} (h : Leads fresh junk lead)
    {cs pre after : List Char} (hcs : cs = pre ++ (charsOf (junk ++ lead) ++ after))
    (hpre : Fresh fresh pre) {key : Token}
    (hkey : key.start = (pre ++ charsOf (junk ++ lead)).length) (ts : List Token) :
    ∃ comment, itemsFrom cs none 0 (tokensAfter pre (junk ++ lead) ++ ts) =
        itemsFrom cs comment 0 ts ∧
      entryStart cs comment key = (pre ++ charsOf junk).length := by
  -- Along the derivation of `junk` and `lead`, which carries whether the line so far is blank.
  induction h generalizing pre with
  | @blank gaps blank =>
    refine ⟨none, ?_, ?_⟩
    · rw [List.nil_append, tokensAfter_gaps, List.nil_append]
    · rw [List.nil_append, charsOf_gaps] at hkey hcs
      rw [entryStart, hkey, hcs, ← List.append_assoc, firstOnLine_append,
        hpre.allBlank_gaps blank, if_pos rfl, lineStart_append, hpre.length_lastLine blank]
      simp
  | @comment gaps ds d ps blank chars rest =>
    refine ⟨some pre.length, ?_, by simp [entryStart]⟩
    have hcs' : cs = pre ++ gaps ++ (d :: (ds ++ (charsOf ps ++ after))) := by simp [hcs]
    rw [List.nil_append, tokensAfter_append, tokensAfter_gaps, List.nil_append, charsOf_gaps,
      tokensAfter_cons, List.cons_append, itemsFrom_comment rfl,
      commentStart_fresh hcs' hpre blank]
    exact itemsFrom_spacers cs pre.length rest _ ts
  | bare =>
    refine ⟨none, rfl, ?_⟩
    have hstale : Text.allBlank (lastLine pre) = false := hpre
    simp only [List.append_nil, charsOf_nil, List.nil_append] at hkey hcs ⊢
    rw [entryStart, hkey, hcs, firstOnLine_append, hstale]
    rfl
  | @skipGap c junk lead blank rest ih =>
    have hstale : Fresh false (pre ++ [c]) :=
      Stale.append hpre (newline_not_mem_gaps (by simpa using blank))
    obtain ⟨comment, hitems, hstart⟩ := ih (by simp [hcs]) hstale (by simpa using hkey)
    have e : Piece.gap c :: junk ++ lead = [c].map .gap ++ (junk ++ lead) := rfl
    refine ⟨comment, ?_, by simpa using hstart⟩
    rw [e, tokensAfter_append, tokensAfter_gaps, List.nil_append]
    exact hitems
  | @skipComment d ds junk lead chars rest ih =>
    have hstale : Fresh false (pre ++ d :: ds) := stale_append_solid pre chars.solid
    obtain ⟨comment, hitems, hstart⟩ := ih (by simp [hcs]) hstale (by simpa using hkey)
    refine ⟨comment, ?_, by simpa using hstart⟩
    rw [List.cons_append, tokensAfter_cons, List.cons_append, itemsFrom_comment rfl,
      commentStart_stale hcs hpre]
    exact hitems
  | @newline junk lead rest ih =>
    obtain ⟨comment, hitems, hstart⟩ := ih (by simp [hcs, newlinePiece])
      (fresh_append_newline pre) (by simpa [newlinePiece] using hkey)
    refine ⟨comment, ?_, by simpa [newlinePiece] using hstart⟩
    rw [List.cons_append, newlinePiece, tokensAfter_cons, List.cons_append, itemsFrom_newline rfl]
    exact hitems
  | @blankLine gaps junk lead blank rest ih =>
    obtain ⟨comment, hitems, hstart⟩ := ih (by simp [hcs, newlinePiece])
      (fresh_append_gaps_newline pre gaps) (by simpa [newlinePiece, Nat.add_assoc] using hkey)
    refine ⟨comment, ?_, by simpa [newlinePiece, Nat.add_assoc] using hstart⟩
    rw [List.append_assoc, tokensAfter_append, tokensAfter_gaps, List.nil_append, charsOf_gaps,
      List.cons_append, newlinePiece, tokensAfter_cons, List.cons_append, itemsFrom_newline rfl]
    exact hitems

theorem Leads.quiet {fresh : Bool} {junk lead : List Piece} (h : Leads fresh junk lead)
    {cs pre after : List Char} (hcs : cs = pre ++ (charsOf junk ++ after))
    (hpre : Fresh fresh pre) :
    ∀ t ∈ tokensAfter pre junk, t.kind = .comment → firstOnLine cs t.start = false := by
  induction h generalizing pre with
  | blank => exact fun _ ht => nomatch ht
  | comment => exact fun _ ht => nomatch ht
  | bare => exact fun _ ht => nomatch ht
  | @skipGap c junk lead blank rest ih =>
    have hstale : Fresh false (pre ++ [c]) :=
      Stale.append hpre (newline_not_mem_gaps (by simpa using blank))
    have e : Piece.gap c :: junk = [c].map .gap ++ junk := rfl
    rw [e, tokensAfter_append, tokensAfter_gaps, List.nil_append]
    exact ih (by simp [hcs]) hstale
  | @skipComment d ds junk lead chars rest ih =>
    rw [tokensAfter_cons]
    intro t ht hkind
    rcases List.mem_cons.1 ht with rfl | ht
    · rw [hcs]
      exact (firstOnLine_append pre _).trans hpre
    · exact ih (by simp [hcs]) (stale_append_solid pre chars.solid) t ht hkind
  | @newline junk lead rest ih =>
    rw [newlinePiece, tokensAfter_cons]
    intro t ht hkind
    rcases List.mem_cons.1 ht with rfl | ht
    · cases hkind
    · exact ih (by simp [hcs, newlinePiece]) (fresh_append_newline pre) t ht hkind
  | @blankLine gaps junk lead blank rest ih =>
    rw [tokensAfter_append, tokensAfter_gaps, List.nil_append, charsOf_gaps, newlinePiece,
      tokensAfter_cons]
    intro t ht hkind
    rcases List.mem_cons.1 ht with rfl | ht
    · cases hkind
    · exact ih (by simp [hcs, newlinePiece]) (fresh_append_gaps_newline pre gaps) t ht hkind

/-- Spacers begin with characters between tokens, up to a newline, a comment or the end. -/
theorem exists_gaps {ps : List Piece} (h : ∀ p ∈ ps, Spacer p) :
    ∃ (gaps : List Char) (rest : List Piece), ps = gaps.map .gap ++ rest ∧ (∀ c ∈ gaps, isGap c = true) ∧
      (rest = [] ∨ (∃ qs, rest = newlinePiece :: qs) ∨
        ∃ d ds qs, CommentChars d ds ∧ rest = .token .comment d ds :: qs) := by
  induction ps with
  | nil => exact ⟨[], [], rfl, (fun _ hc => nomatch hc), .inl rfl⟩
  | cons p ps ih =>
    cases h p (List.mem_cons_self ..) with
    | @gap c blank =>
      obtain ⟨gaps, rest, rfl, hgaps, hrest⟩ := ih fun q hq => h q (List.mem_cons_of_mem _ hq)
      exact ⟨c :: gaps, rest, rfl, List.forall_mem_cons.2 ⟨blank, hgaps⟩, hrest⟩
    | newline =>
      exact ⟨[], _, rfl, (fun _ hc => nomatch hc), .inr (.inl ⟨ps, rfl⟩)⟩
    | @comment d ds chars =>
      exact ⟨[], _, rfl, (fun _ hc => nomatch hc), .inr (.inr ⟨d, ds, ps, chars, rfl⟩)⟩

/-- Spacers before a key can be split where the block of the key begins. -/
theorem exists_leads {ps : List Piece} (h : ∀ p ∈ ps, Spacer p) (fresh : Bool) :
    ∃ junk lead, ps = junk ++ lead ∧ Leads fresh junk lead := by
  induction hn : ps.length using Nat.strongRecOn generalizing ps fresh with
  | _ n ih =>
    subst hn
    cases fresh with
    | false =>
      cases ps with
      | nil => exact ⟨[], [], rfl, .bare⟩
      | cons p ps =>
        have hrest := fun q hq => h q (List.mem_cons_of_mem p hq)
        cases h p (List.mem_cons_self ..) with
        | @gap c blank =>
          obtain ⟨junk, lead, rfl, hleads⟩ := ih _ (Nat.lt_succ_self _) hrest false rfl
          exact ⟨_, lead, rfl, .skipGap blank hleads⟩
        | newline =>
          obtain ⟨junk, lead, rfl, hleads⟩ := ih _ (Nat.lt_succ_self _) hrest true rfl
          exact ⟨_, lead, rfl, .newline hleads⟩
        | comment chars =>
          obtain ⟨junk, lead, rfl, hleads⟩ := ih _ (Nat.lt_succ_self _) hrest false rfl
          exact ⟨_, lead, rfl, .skipComment chars hleads⟩
    | true =>
      obtain ⟨gaps, rest, rfl, hgaps, hrest⟩ := exists_gaps h
      rcases hrest with rfl | ⟨qs, rfl⟩ | ⟨d, ds, qs, chars, rfl⟩
      · exact ⟨[], _, rfl, by simpa using Leads.blank hgaps⟩
      · have hqs : ∀ q ∈ qs, Spacer q := fun q hq =>
          h q (List.mem_append_right _ (List.mem_cons_of_mem _ hq))
        obtain ⟨junk, lead, rfl, hleads⟩ := ih qs.length
          (by rw [List.length_append, List.length_cons]; omega) hqs true rfl
        exact ⟨gaps.map .gap ++ newlinePiece :: junk, lead, by simp, .blankLine hgaps hleads⟩
      · have hqs : ∀ q ∈ qs, Spacer q := fun q hq =>
          h q (List.mem_append_right _ (List.mem_cons_of_mem _ hq))
        exact ⟨[], _, rfl, .comment hgaps chars hqs⟩

/-! ## Blocks -/

/-- The pieces of a comma after some characters, if there is one. -/
def commaAfter : Option (List Char) → List Piece
  | some gaps => gaps.map .gap ++ [.token .comma ',' []]
  | none => []

/-- A key with its block and its comma, and the characters between them. -/
structure Core where
  kind : Token.Kind
  head : Char
  tail : List Char
  signGap : List Char
  openGap : List Char
  inside : List Piece
  commaGap : Option (List Char)

namespace Core

def commaPieces (b : Core) : List Piece :=
  commaAfter b.commaGap

/-- The pieces of a core up to the brace that closes it. -/
def openPieces (b : Core) : List Piece :=
  .token b.kind b.head b.tail :: (b.signGap.map .gap ++ .token .equals '=' [] ::
    (b.openGap.map .gap ++ .token .openBrace '\x7b' [] :: b.inside))

def pieces (b : Core) : List Piece :=
  b.openPieces ++ .token .closeBrace '\x7d' [] :: b.commaPieces

def key? (b : Core) : Option String :=
  keyOf? (tokenAfter [] b.kind b.head b.tail)

/-- A core has a key, and its block is nested. -/
structure Valid (b : Core) (key : String) : Prop where
  key : b.key? = some key
  signGap : ∀ c ∈ b.signGap, isGap c = true
  openGap : ∀ c ∈ b.openGap, isGap c = true
  solid : Text.isBlank b.head = false
  inside : Nested (kindsOf b.inside)
  commaGap : ∀ gaps, b.commaGap = some gaps → ∀ c ∈ gaps, isGap c = true

end Core

/-- What belongs to a block after its core: nothing, or a comment that follows directly. -/
inductive Tail : List Piece → Prop
  | none : Tail []
  | comment {gaps ds : List Char} {d : Char} (blank : ∀ c ∈ gaps, isGap c = true)
    (chars : CommentChars d ds) : Tail (gaps.map .gap ++ [.token .comment d ds])

/-- A block, with what stands before it and belongs to no block. -/
structure Block where
  key : String
  junk : List Piece
  lead : List Piece
  core : Core
  tail : List Piece

namespace Block

def kept (b : Block) : List Piece :=
  b.lead ++ (b.core.pieces ++ b.tail)

/-- The pieces of a block with what stands before it. -/
def pieces (b : Block) : List Piece :=
  b.junk ++ b.kept

def text (b : Block) : String :=
  String.ofList (charsOf b.kept)

/-- A block begins where its lead begins and ends where its tail ends. -/
structure Valid (b : Block) : Prop where
  leads : Leads false b.junk b.lead
  core : b.core.Valid b.key
  tail : Tail b.tail

/-- The pieces after a block do not belong to it: no comment follows directly, and a newline
follows where the block has no comma. -/
def Ends (b : Block) (after : List Piece) : Prop :=
  b.tail = [] → ∀ k ∈ (kindsOf after).head?,
    k ≠ .comment ∧ (b.core.commaGap = none → k = .newline)

def entryAfter (b : Block) (pre : List Char) : Entry :=
  ⟨b.key, lineAfterAll 0 (pre ++ charsOf (b.junk ++ b.lead)), (pre ++ charsOf b.junk).length,
    (pre ++ charsOf b.pieces).length⟩

end Block

/-- The pieces of blocks with what stands before and after them. -/
def regionPieces (bs : List Block) (trail : List Piece) : List Piece :=
  bs.flatMap Block.pieces ++ trail

/-- Blocks one after another, as the scan of a region can meet them. -/
inductive Arranged : List Block → List Piece → Prop
  | nil {trail : List Piece} (spacers : ∀ p ∈ trail, Spacer p) : Arranged [] trail
  | cons {b : Block} {bs : List Block} {trail : List Piece} (valid : b.Valid)
    (ends : b.Ends (regionPieces bs trail)) (rest : Arranged bs trail) : Arranged (b :: bs) trail

def entriesAfter (pre : List Char) : List Block → List Entry
  | [] => []
  | b :: bs => b.entryAfter pre :: entriesAfter (pre ++ charsOf b.pieces) bs

/-! ## The scan of blocks -/

theorem commaPieces_cases {c : Core} {key : String} (h : c.Valid key) :
    (c.commaGap = none ∧ c.commaPieces = []) ∨
      ∃ gaps : List Char, c.commaGap = some gaps ∧ (∀ d ∈ gaps, isGap d = true) ∧
        c.commaPieces = gaps.map .gap ++ [.token .comma ',' []] := by
  cases hgap : c.commaGap with
  | none => exact .inl ⟨rfl, by rw [Core.commaPieces, hgap, commaAfter]⟩
  | some gaps => exact .inr ⟨gaps, rfl, h.commaGap gaps hgap, by rw [Core.commaPieces, hgap, commaAfter]⟩

theorem newline_not_mem_comma {c : Core} {key : String} (h : c.Valid key) :
    '\n' ∉ charsOf (.token .closeBrace '\x7d' [] :: c.commaPieces) := by
  rcases commaPieces_cases h with ⟨-, hcomma⟩ | ⟨gaps, -, hgaps, hcomma⟩
  · rw [hcomma]
    decide
  · have := newline_not_mem_gaps hgaps
    rw [hcomma]
    simp [this]

theorem Core.Valid.openTokens {c : Core} {key : String} (h : c.Valid key) (pre : List Char) :
    ∃ sign opening inside,
      tokensAfter pre c.openPieces =
        tokenAfter pre c.kind c.head c.tail :: sign :: opening :: inside ∧
      sign.kind = .equals ∧ opening.kind = .openBrace ∧ Nested (inside.map Token.kind) := by
  rw [Core.openPieces, tokensAfter_cons, tokensAfter_append, tokensAfter_gaps, tokensAfter_cons,
    tokensAfter_append, tokensAfter_gaps, tokensAfter_cons]
  refine ⟨_, _, _, rfl, rfl, rfl, ?_⟩
  rw [map_kind_tokensAfter]
  exact h.inside

theorem Core.Valid.tokens {c : Core} {key : String} (h : c.Valid key) (pre : List Char) :
    ∃ (sign opening closing : Token) (inside commas : List Token),
      tokensAfter pre c.pieces = tokenAfter pre c.kind c.head c.tail :: sign :: opening ::
        (inside ++ closing :: commas) ∧
      sign.kind = .equals ∧ opening.kind = .openBrace ∧ Nested (inside.map Token.kind) ∧
      closing.kind = .closeBrace ∧
      closing.line = lineAfterAll 0 (pre ++ charsOf c.pieces) ∧
      ((commas = [] ∧ c.commaGap = none) ∨
        ∃ t, commas = [t] ∧ t.kind = .comma ∧ c.commaGap ≠ none) ∧
      stopAfter closing commas [] = (pre ++ charsOf c.pieces).length := by
  obtain ⟨sign, opening, inside, hopen, hsign, hopening, hinside⟩ := h.openTokens pre
  have hline := lineAfterAll_eq_self (newline_not_mem_comma h)
    (lineAfterAll 0 (pre ++ charsOf c.openPieces))
  refine ⟨sign, opening, tokenAfter (pre ++ charsOf c.openPieces) .closeBrace '\x7d' [], inside,
    tokensAfter (pre ++ charsOf c.openPieces ++ ['\x7d']) c.commaPieces, ?_, hsign, hopening,
    hinside, rfl, ?_, ?_⟩
  · rw [Core.pieces, tokensAfter_append, hopen, tokensAfter_cons]
    rfl
  · rw [Core.pieces, charsOf_append, ← List.append_assoc, lineAfterAll_append, hline]
    rfl
  · rcases commaPieces_cases h with ⟨hnone, hcomma⟩ | ⟨gaps, hsome, hgaps, hcomma⟩
    · rw [Core.pieces, hcomma]
      refine ⟨.inl ⟨rfl, hnone⟩, ?_⟩
      simp [stopAfter, tokenAfter]
      omega
    · rw [Core.pieces, hcomma, tokensAfter_append, tokensAfter_gaps, tokensAfter_cons]
      refine ⟨.inr ⟨_, rfl, rfl, by simp [hsome]⟩, ?_⟩
      simp [stopAfter, tokenAfter]
      omega

/-- The tail of a block that stands after a text: nothing, or a comment on the last line of the
text. -/
theorem Tail.tokens {tail : List Piece} (h : Tail tail) (pre : List Char) :
    (tail = [] ∧ tokensAfter pre tail = []) ∨
      ∃ t, tokensAfter pre tail = [t] ∧ t.kind = .comment ∧ t.line = lineAfterAll 0 pre ∧
        t.stop = (pre ++ charsOf tail).length := by
  cases h with
  | none => exact .inl ⟨rfl, rfl⟩
  | @comment gaps ds d blank chars =>
    refine .inr ⟨tokenAfter (pre ++ gaps) .comment d ds, ?_, rfl, ?_, ?_⟩
    · rw [tokensAfter_append, tokensAfter_gaps, tokensAfter_cons, charsOf_gaps]
      rfl
    · exact (lineAfterAll_append 0 pre gaps).trans
        (lineAfterAll_eq_self (newline_not_mem_gaps blank) _)
    · simp [tokenAfter]
      omega

/-- A text with a block after it ends on a line that is not blank. -/
theorem Block.Valid.stale_kept {b : Block} (h : b.Valid) (pre : List Char) :
    Stale (pre ++ charsOf b.kept) := by
  have hcore : ∀ x, Stale (x ++ charsOf b.core.pieces) := by
    intro x
    rw [Core.pieces, charsOf_append, ← List.append_assoc]
    have hcomma := newline_not_mem_comma h.core
    rw [charsOf_token, List.nil_append, List.mem_cons, not_or] at hcomma
    exact stale_append_solid _ ⟨[], '\x7d', _, rfl, by decide, hcomma.2⟩
  rw [Block.kept, charsOf_append, charsOf_append, ← List.append_assoc, ← List.append_assoc]
  have htail := h.tail
  generalize b.tail = tail at htail
  cases htail with
  | none =>
    rw [charsOf_nil, List.append_nil]
    exact hcore _
  | @comment gaps ds d blank chars =>
    have e : charsOf (gaps.map .gap ++ [.token .comment d ds]) = gaps ++ d :: ds := by simp
    rw [e, ← List.append_assoc]
    exact stale_append_solid _ chars.solid

theorem Block.Valid.stale {b : Block} (h : b.Valid) (pre : List Char) :
    Stale (pre ++ charsOf b.pieces) := by
  rw [Block.pieces, charsOf_append, ← List.append_assoc]
  exact h.stale_kept _

theorem itemsFrom_spacers_nil (cs : List Char) {ps : List Piece} (h : ∀ p ∈ ps, Spacer p)
    (comment : Option Nat) (pre : List Char) :
    itemsFrom cs comment 0 (tokensAfter pre ps) = [] := by
  induction ps generalizing pre comment with
  | nil => rfl
  | cons p ps ih =>
    have hrest := fun q hq => h q (List.mem_cons_of_mem p hq)
    cases h p (List.mem_cons_self ..) with
    | @gap c blank =>
      have e : Piece.gap c :: ps = [c].map .gap ++ ps := rfl
      rw [e, tokensAfter_append, tokensAfter_gaps, List.nil_append]
      exact ih hrest _ _
    | newline =>
      rw [newlinePiece, tokensAfter_cons, itemsFrom_newline rfl]
      exact ih hrest _ _
    | comment chars =>
      rw [tokensAfter_cons, itemsFrom_comment rfl]
      exact ih hrest _ _

theorem Block.Ends.mayFollow {b : Block} {ps : List Piece} (h : b.Ends ps) (htail : b.tail = [])
    {commas : List Token} (hnone : commas = [] → b.core.commaGap = none) (pre : List Char) :
    MayFollow commas (tokensAfter pre ps) := by
  intro t ht
  have hkind : t.kind ∈ (kindsOf ps).head? := by
    rw [← map_kind_tokensAfter pre ps, List.head?_map]
    exact Option.mem_map_of_mem _ ht
  obtain ⟨hcomment, hnewline⟩ := h htail t.kind hkind
  exact ⟨hcomment, fun hnil => hnewline (hnone hnil)⟩

theorem itemsFrom_block {b : Block} (h : b.Valid) {cs pre after : List Char}
    (hcs : cs = pre ++ (charsOf b.pieces ++ after)) (hpre : Stale pre) {ps : List Piece}
    (hends : b.Ends ps) :
    itemsFrom cs none 0 (tokensAfter pre (b.pieces ++ ps)) =
      .entry (b.entryAfter pre) :: itemsFrom cs none 0 (tokensAfter (pre ++ charsOf b.pieces) ps) := by
  obtain ⟨sign, opening, closing, inside, commas, hcore, hsign, hopening, hinside, hclosing, hline,
    hcommas, hstop⟩ := h.core.tokens (pre ++ charsOf (b.junk ++ b.lead))
  have e : b.pieces ++ ps = (b.junk ++ b.lead) ++ (b.core.pieces ++ (b.tail ++ ps)) := by
    simp [Block.pieces, Block.kept]
  have hcs' : cs = pre ++ (charsOf (b.junk ++ b.lead) ++
      (charsOf (b.core.pieces ++ b.tail) ++ after)) := by
    simp [hcs, Block.pieces, Block.kept]
  have hplace : (tokenAfter (pre ++ charsOf (b.junk ++ b.lead)) b.core.kind b.core.head
      b.core.tail).start = (pre ++ charsOf (b.junk ++ b.lead)).length := rfl
  obtain ⟨comment, hleads, hstart⟩ := itemsFrom_leads h.leads hcs' hpre hplace
    (tokensAfter (pre ++ charsOf (b.junk ++ b.lead)) (b.core.pieces ++ (b.tail ++ ps)))
  have hlead : pre ++ charsOf (b.junk ++ b.lead) ++ charsOf b.core.pieces ++ charsOf b.tail =
      pre ++ charsOf b.pieces := by
    simp [Block.pieces, Block.kept]
  rw [e, tokensAfter_append, hleads, tokensAfter_append, hcore, tokensAfter_append, hlead]
  have hnone : commas = [] → b.core.commaGap = none := by
    rintro rfl
    rcases hcommas with ⟨-, hnone⟩ | ⟨u, hu, -⟩
    · exact hnone
    · cases hu
  have hcommas' : commas = [] ∨ ∃ t, commas = [t] ∧ t.kind = .comma :=
    hcommas.imp And.left fun ⟨t, ht, hkind, _⟩ => ⟨t, ht, hkind⟩
  have hkey : keyOf? (tokenAfter (pre ++ charsOf (b.junk ++ b.lead)) b.core.kind b.core.head
      b.core.tail) = some b.key := h.core.key
  -- The block is one entry, whether a comment follows it on its last line or nothing does.
  have hentry : ∀ tail, ((tail = [] ∧ MayFollow commas (tokensAfter (pre ++ charsOf b.pieces) ps)) ∨
      ∃ t, tail = [t] ∧ t.kind = .comment ∧ t.line = closing.line) →
      stopAfter closing commas tail = (pre ++ charsOf b.pieces).length →
      itemsFrom cs comment 0 (tokenAfter (pre ++ charsOf (b.junk ++ b.lead)) b.core.kind b.core.head
          b.core.tail :: sign :: opening :: (inside ++ closing :: commas) ++
          (tail ++ tokensAfter (pre ++ charsOf b.pieces) ps)) =
        .entry (b.entryAfter pre) ::
          itemsFrom cs none 0 (tokensAfter (pre ++ charsOf b.pieces) ps) := by
    intro tail htail hstop
    have hitems := itemsFrom_entry cs comment hkey hsign hopening hinside
      hclosing hcommas' htail
    rw [hstart, hstop] at hitems
    simp only [List.cons_append, List.append_assoc]
    exact hitems
  rcases h.tail.tokens (pre ++ charsOf (b.junk ++ b.lead) ++ charsOf b.core.pieces) with
    ⟨hnil, htail⟩ | ⟨t, htail, hkind, htline, htstop⟩
  · rw [htail]
    refine hentry [] (.inl ⟨rfl, hends.mayFollow hnil hnone _⟩) ?_
    rw [hstop, ← hlead, hnil, charsOf_nil, List.append_nil]
  · rw [htail]
    refine hentry [t] (.inr ⟨t, rfl, hkind, htline.trans hline.symm⟩) ?_
    rw [← hlead, ← htstop, stopAfter, List.getLast_cons (by simp), List.getLast_append_right (by simp)]
    rfl

/-- The scan of blocks finds their entries. -/
theorem itemsFrom_arranged {bs : List Block} {trail : List Piece} (h : Arranged bs trail)
    {cs pre after : List Char} (hcs : cs = pre ++ (charsOf (regionPieces bs trail) ++ after))
    (hpre : Stale pre) :
    itemsFrom cs none 0 (tokensAfter pre (regionPieces bs trail)) =
      (entriesAfter pre bs).map .entry := by
  induction h generalizing pre with
  | nil spacers => exact itemsFrom_spacers_nil cs spacers none pre
  | @cons b bs trail valid ends _ ih =>
    have e : regionPieces (b :: bs) trail = b.pieces ++ regionPieces bs trail := by
      simp [regionPieces]
    rw [e, charsOf_append] at hcs
    rw [e, itemsFrom_block valid (by simpa using hcs) hpre ends, entriesAfter, List.map_cons,
      ih (by simpa using hcs) (valid.stale pre)]

/-! ## Nesting -/

theorem Leads.spacers {fresh : Bool} {junk lead : List Piece} (h : Leads fresh junk lead) :
    ∀ p ∈ junk ++ lead, Spacer p := by
  have hgaps : ∀ {cs : List Char}, (∀ c ∈ cs, isGap c = true) → ∀ p ∈ cs.map Piece.gap, Spacer p := by
    intro cs hcs p hp
    obtain ⟨c, hc, rfl⟩ := List.mem_map.1 hp
    exact .gap (hcs c hc)
  induction h with
  | blank blank => exact hgaps blank
  | comment blank chars rest =>
    intro p hp
    rw [List.nil_append] at hp
    rcases List.mem_append.1 hp with hp | hp
    · exact hgaps blank p hp
    · exact List.forall_mem_cons.2 ⟨.comment chars, rest⟩ p hp
  | bare => exact fun _ hp => nomatch hp
  | skipGap blank _ ih => exact List.forall_mem_cons.2 ⟨.gap blank, ih⟩
  | skipComment chars _ ih => exact List.forall_mem_cons.2 ⟨.comment chars, ih⟩
  | newline _ ih => exact List.forall_mem_cons.2 ⟨.newline, ih⟩
  | blankLine blank _ ih =>
    intro p hp
    rw [List.append_assoc] at hp
    rcases List.mem_append.1 hp with hp | hp
    · exact hgaps blank p hp
    · exact List.forall_mem_cons.2 ⟨.newline, ih⟩ p hp

theorem Tail.spacers {tail : List Piece} (h : Tail tail) : ∀ p ∈ tail, Spacer p := by
  cases h with
  | none => exact fun _ hp => nomatch hp
  | comment blank chars =>
    intro p hp
    rcases List.mem_append.1 hp with hp | hp
    · obtain ⟨c, hc, rfl⟩ := List.mem_map.1 hp
      exact .gap (blank c hc)
    · rw [List.mem_singleton.1 hp]
      exact .comment chars

theorem nested_spacers {ps : List Piece} (h : ∀ p ∈ ps, Spacer p) : Nested (kindsOf ps) := by
  induction ps with
  | nil => exact .nil
  | cons p ps ih =>
    have hrest := ih fun q hq => h q (List.mem_cons_of_mem p hq)
    cases h p (List.mem_cons_self ..) with
    | gap => exact hrest
    | newline => exact .plain rfl rfl hrest
    | comment => exact .plain rfl rfl hrest

theorem nested_commaPieces {c : Core} {key : String} (h : c.Valid key) :
    Nested (kindsOf c.commaPieces) := by
  rcases commaPieces_cases h with ⟨-, hcomma⟩ | ⟨gaps, -, -, hcomma⟩
  · rw [hcomma]
    exact .nil
  · rw [hcomma, kindsOf_append, kindsOf_gaps, List.nil_append]
    exact .plain rfl rfl .nil

theorem Core.Valid.nested {c : Core} {key : String} (h : c.Valid key) : Nested (kindsOf c.pieces) := by
  have hkey : c.kind.isOpener = false ∧ c.kind.isCloser = false := by
    have hkey := h.key
    unfold Core.key? keyOf? at hkey
    split at hkey
    · next hk => rw [show c.kind = .ident from hk]; exact ⟨rfl, rfl⟩
    · next hk => rw [show c.kind = .string _ _ from hk]; exact ⟨rfl, rfl⟩
    · cases hkey
  have e : kindsOf c.pieces = c.kind :: .equals :: .openBrace ::
      (kindsOf c.inside ++ .closeBrace :: kindsOf c.commaPieces) := by
    simp [Core.pieces, Core.openPieces, kindsOf_append, kindsOf]
  rw [e]
  exact .plain hkey.1 hkey.2 (.plain rfl rfl (.group rfl h.inside (nested_commaPieces h)))

/-- The tokens of blocks and of what stands around them are nested. -/
theorem Arranged.nested {bs : List Block} {trail : List Piece} (h : Arranged bs trail) :
    Nested (kindsOf (regionPieces bs trail)) := by
  induction h with
  | nil spacers => exact nested_spacers spacers
  | @cons b bs trail valid ends _ ih =>
    have e : regionPieces (b :: bs) trail =
        (b.junk ++ b.lead) ++ (b.core.pieces ++ (b.tail ++ regionPieces bs trail)) := by
      simp [regionPieces, Block.pieces, Block.kept]
    rw [e, kindsOf_append, kindsOf_append b.core.pieces, kindsOf_append b.tail]
    exact (nested_spacers valid.leads.spacers).append
      (valid.core.nested.append ((nested_spacers valid.tail.spacers).append ih))

/-! ## Texts of entries -/

theorem slice_append (pre cs after : List Char) :
    slice (pre ++ (cs ++ after)) pre.length (pre ++ cs).length = cs := by
  rw [slice, List.drop_left, List.length_append, Nat.add_sub_cancel_left, List.take_left]

theorem Block.text_entryAfter (b : Block) {source : String} {pre after : List Char}
    (h : source.toList = pre ++ (charsOf b.pieces ++ after)) :
    (b.entryAfter pre).text source = b.text := by
  have e : pre ++ (charsOf b.pieces ++ after) =
      (pre ++ charsOf b.junk) ++ (charsOf b.kept ++ after) := by
    simp [Block.pieces]
  have e' : pre ++ charsOf b.pieces = (pre ++ charsOf b.junk) ++ charsOf b.kept := by
    simp [Block.pieces]
  rw [Entry.text, Block.text, h, e, Block.entryAfter, e', slice_append]

end InstanceInventory.Document
