import InstanceInventory.Literal.Parser
import InstanceInventory.Proofs.Document.Relocation
import InstanceInventory.Proofs.Literal.Tiling
import Mathlib.Data.List.Forall2

/-! # Well mapped documents

* `MapItem`: a key, an equals sign and a nested block among the tokens of a map, with what stands
  after them up to the next key.
* `WellMapped`: a document whose map of instances is a sequence of such items, set apart by a comma
  or a newline.
* `Covers`: entries take their items along, with the comments above them.
* `WellMapped.arranged`: the map of a well mapped document is a sequence of blocks.
-/

namespace InstanceInventory.Document
set_option autoImplicit false
open Literal

/-! ## Items of a map -/

/-- A token that may stand between items: a newline or a comment. -/
def isSpacing (t : Token) : Bool :=
  t.isNewline || t.isComment

/-- An item of the map of instances: its name, the tokens of its key, its sign and its block, the
comma directly after it, if there is one, and the tokens from there up to the next key. -/
structure MapItem where
  name : String
  key : Token
  sign : Token
  opening : Token
  inside : List Token
  closing : Token
  comma : Option Token
  after : List Token

namespace MapItem

/-- The tokens of an item and those up to the next key. -/
def tokens (i : MapItem) : List Token :=
  i.key :: i.sign :: i.opening :: (i.inside ++ i.closing :: (i.comma.toList ++ i.after))

/-- The place where an item ends. -/
def stop (i : MapItem) : Nat :=
  stopAfter i.closing i.comma.toList []

/-- An item is a bare or quoted key, an equals sign and a nested block, and after its comma stand
newlines and comments only. -/
structure Valid (i : MapItem) : Prop where
  key : keyOf? i.key = some i.name
  sign : i.sign.kind = .equals
  opening : i.opening.kind = .openBrace
  inside : Nested (i.inside.map Token.kind)
  closing : i.closing.kind = .closeBrace
  comma : ∀ t ∈ i.comma, t.kind = .comma
  after : ∀ t ∈ i.after, isSpacing t = true

/-- Whether an item is set apart from the next one: by its comma or by a newline. -/
def Apart (i : MapItem) : Prop :=
  i.comma.isSome = true ∨ ∃ t ∈ i.after, t.kind = .newline

end MapItem

/-- A document that can be split into tokens and whose map of instances is a sequence of items that
are set apart, after newlines and comments. -/
structure WellMapped (text : String) (before : List Token) (is : List MapItem) : Prop where
  reads : ∃ ts r, tokenize text = .ok ts ∧ findMap text = .ok (.found r) ∧
    innerTokens r ts = before ++ is.flatMap MapItem.tokens
  before : ∀ t ∈ before, isSpacing t = true
  items : ∀ i ∈ is, i.Valid
  apart : ∀ i ∈ is.dropLast, i.Apart

/-- Entries that take the items along, each under its name, with every comment that is first on its
line among the tokens before its key and with a comment that follows directly. -/
inductive Covers (cs : List Char) : List Token → List MapItem → List Entry → Prop
  | nil {before : List Token} : Covers cs before [] []
  | cons {before : List Token} {i : MapItem} {is : List MapItem} {e : Entry} {es : List Entry}
    (key : e.key = i.name) (start : e.start ≤ i.key.start) (stop : i.stop ≤ e.stop)
    (comments : ∀ t ∈ before, t.kind = .comment → firstOnLine cs t.start = true →
      e.start ≤ t.start ∧ t.stop ≤ e.stop)
    (remark : ∀ t ∈ i.after.head?, t.kind = .comment → t.stop ≤ e.stop)
    (rest : Covers cs i.after is es) : Covers cs before (i :: is) (e :: es)

/-! ## Pieces of tokens -/

theorem mem_tokensAfter {pre : List Char} {ps : List Piece} {t : Token}
    (h : t ∈ tokensAfter pre ps) :
    pre.length ≤ t.start ∧ t.start < t.stop ∧ t.stop ≤ (pre ++ charsOf ps).length := by
  obtain ⟨front, k, c, ds, back, rfl, rfl⟩ := exists_piece_of_mem h
  simp only [charsOf_append, charsOf_token, List.length_append, List.length_cons]
  omega

theorem line_of_mem_tokensAfter {pre : List Char} {ps : List Piece} {t : Token}
    (h : t ∈ tokensAfter pre ps) : t.line = lineAfterAll 0 ((pre ++ charsOf ps).take t.start) := by
  obtain ⟨front, k, c, ds, back, rfl, rfl⟩ := exists_piece_of_mem h
  dsimp only
  rw [charsOf_append, ← List.append_assoc, ← List.length_append, List.take_left,
    lineAfterAll_append]

/-- The tokens of lines that are closed stand on these lines. -/
theorem line_lt_of_mem_tokensAfter {pre cs : List Char} {ps : List Piece} {t : Token}
    (h : t ∈ tokensAfter pre ps) (hps : charsOf ps = cs ++ ['\n']) :
    t.line < (pre ++ charsOf ps).count '\n' := by
  obtain ⟨-, hstop, hlength⟩ := mem_tokensAfter h
  have hstart : t.start ≤ (pre ++ cs).length := by
    rw [hps, ← List.append_assoc, List.length_append] at hlength
    simp only [List.length_singleton] at hlength
    omega
  rw [line_of_mem_tokensAfter h, lineAfterAll_eq_count, hps, ← List.append_assoc,
    List.take_append_of_le_length hstart, List.count_append]
  have := (List.take_sublist t.start (pre ++ cs)).count_le '\n'
  simp only [List.count_singleton_self]
  omega

/-- The first of some tokens is a piece, after characters between tokens. -/
theorem exists_first_piece {pre : List Char} {ps : List Piece} {t : Token} {us : List Token}
    (h : tokensAfter pre ps = t :: us) :
    ∃ (gaps : List Char) (k : Token.Kind) (c : Char) (cs : List Char) (rest : List Piece),
      ps = gaps.map .gap ++ .token k c cs :: rest ∧ t = tokenAfter (pre ++ gaps) k c cs ∧
      tokensAfter (pre ++ gaps ++ c :: cs) rest = us := by
  induction ps generalizing pre with
  | nil => cases h
  | cons p ps ih =>
    cases p with
    | gap d =>
      have e : Piece.gap d :: ps = [d].map .gap ++ ps := rfl
      rw [e, tokensAfter_append, tokensAfter_gaps, List.nil_append, charsOf_gaps] at h
      obtain ⟨gaps, k, c, cs, rest, rfl, rfl, rfl⟩ := ih h
      exact ⟨d :: gaps, k, c, cs, rest, rfl, by simp, by simp⟩
    | token k c cs =>
      rw [tokensAfter_cons] at h
      cases h
      exact ⟨[], k, c, cs, ps, rfl, by simp, by simp⟩

/-- Pieces can be split where their tokens can. -/
theorem exists_split_pieces {pre : List Char} {ps : List Piece} {ts us : List Token}
    (h : tokensAfter pre ps = ts ++ us) :
    ∃ qs rs, ps = qs ++ rs ∧ tokensAfter pre qs = ts ∧
      tokensAfter (pre ++ charsOf qs) rs = us := by
  induction ts generalizing pre ps with
  | nil => exact ⟨[], ps, rfl, rfl, by simpa using h⟩
  | cons t ts ih =>
    obtain ⟨gaps, k, c, cs, rest, rfl, rfl, hrest⟩ := exists_first_piece h
    obtain ⟨qs, rs, rfl, hqs, hrs⟩ := ih hrest
    refine ⟨gaps.map .gap ++ .token k c cs :: qs, rs, by simp, ?_, by simpa using hrs⟩
    rw [tokensAfter_append, tokensAfter_gaps, tokensAfter_cons, charsOf_gaps, hqs]
    rfl

theorem isGap_of_lexed {after gaps : List Char} {ps : List Piece}
    (h : Lexed after (gaps.map .gap ++ ps)) : ∀ c ∈ gaps, isGap c = true := by
  induction gaps with
  | nil => exact fun _ hc => nomatch hc
  | cons c gaps ih =>
    cases h with
    | gap blank rest => exact List.forall_mem_cons.2 ⟨blank, ih rest⟩

theorem lexeme_of_lexed {after : List Char} {k : Token.Kind} {c : Char} {cs : List Char}
    {ps : List Piece} (h : Lexed after (.token k c cs :: ps)) :
    lexeme 0 c (cs ++ (charsOf ps ++ after)) = .ok (k, cs.length) := by
  cases h with
  | token _ read _ => exact read 0

theorem eq_mark_of_lexed {after : List Char} {k : Token.Kind} {c d : Char} {cs : List Char}
    {ps : List Piece} (h : Lexed after (.token k c cs :: ps)) (hd : punctuation? d = some k) :
    c = d ∧ cs = [] := by
  obtain ⟨hc, hlength⟩ := mark_of_lexeme hd (lexeme_of_lexed h)
  exact ⟨hc, List.length_eq_zero_iff.1 hlength⟩

theorem eq_newline_of_lexed {after : List Char} {c : Char} {cs : List Char}
    {ps : List Piece} (h : Lexed after (.token .newline c cs :: ps)) : c = '\n' ∧ cs = [] := by
  obtain ⟨hc, hlength⟩ := newline_of_lexeme (lexeme_of_lexed h)
  exact ⟨hc, List.length_eq_zero_iff.1 hlength⟩

theorem eq_equals_of_lexed {after : List Char} {c : Char} {cs : List Char}
    {ps : List Piece} (h : Lexed after (.token .equals c cs :: ps)) : c = '=' ∧ cs = [] := by
  obtain ⟨hc, hlength⟩ := equals_of_lexeme (lexeme_of_lexed h)
  exact ⟨hc, List.length_eq_zero_iff.1 hlength⟩

theorem isSpacing_kind {t : Token} (h : isSpacing t = true) :
    t.kind = .newline ∨ t.kind = .comment := by
  rw [isSpacing, Bool.or_eq_true] at h
  rcases h with h | h
  · left
    unfold Token.isNewline at h
    split at h
    · assumption
    · cases h
  · right
    unfold Token.isComment at h
    split at h
    · assumption
    · cases h

/-- A piece of a kind that may stand between items is a spacer. -/
theorem spacer_of_lexed {after : List Char} {k : Token.Kind} {c : Char} {cs : List Char}
    {ps : List Piece} (h : Lexed after (.token k c cs :: ps)) (hk : k = .newline ∨ k = .comment) :
    Spacer (.token k c cs) := by
  rcases hk with rfl | rfl
  · obtain ⟨rfl, rfl⟩ := eq_newline_of_lexed h
    exact .newline
  · exact .comment (commentChars_of_lexeme (lexeme_of_lexed h))

/-- Pieces whose tokens are newlines and comments are spacers. -/
theorem spacers_of_lexed {after pre : List Char} {ps : List Piece} (h : Lexed after ps)
    (hps : ∀ t ∈ tokensAfter pre ps, isSpacing t = true) : ∀ p ∈ ps, Spacer p := by
  induction ps generalizing pre with
  | nil => exact fun _ hp => nomatch hp
  | cons p ps ih =>
    cases p with
    | gap c =>
      have e : Piece.gap c :: ps = [c].map .gap ++ ps := rfl
      rw [e, tokensAfter_append, tokensAfter_gaps, List.nil_append] at hps
      cases h with
      | gap blank rest => exact List.forall_mem_cons.2 ⟨.gap blank, ih rest hps⟩
    | token k c cs =>
      rw [tokensAfter_cons, List.forall_mem_cons] at hps
      have hspacer := spacer_of_lexed h (isSpacing_kind hps.1)
      cases h with
      | token _ _ rest => exact List.forall_mem_cons.2 ⟨hspacer, ih rest hps.2⟩

/-- A token that can be a key begins with a character that is not blank. -/
theorem isBlank_of_keyOf? {line n : Nat} {c : Char} {rest : List Char} {t : Token} {name : String}
    (h : lexeme line c rest = .ok (t.kind, n)) (hkey : keyOf? t = some name) :
    Text.isBlank c = false := by
  have hk : t.kind = .ident ∨ ∃ s b, t.kind = .string s b := by
    unfold keyOf? at hkey
    split at hkey
    · next hk => exact .inl hk
    · next value plain hk => exact .inr ⟨value, plain, hk⟩
    · cases hkey
  rcases key_of_lexeme h hk with hc | rfl
  · exact isBlank_of_isNameStart hc
  · decide

/-! ## Items as blocks -/

/-- The first of some tokens, as the piece that is read back. -/
theorem exists_token {pre after : List Char} {ps : List Piece} {t : Token} {us : List Token}
    (hlexed : Lexed after ps) (h : tokensAfter pre ps = t :: us) :
    ∃ (gaps : List Char) (k : Token.Kind) (c : Char) (cs : List Char) (rest : List Piece),
      ps = gaps.map .gap ++ .token k c cs :: rest ∧ (∀ d ∈ gaps, isGap d = true) ∧
      t = tokenAfter (pre ++ gaps) k c cs ∧ Lexed after (.token k c cs :: rest) ∧
      Lexed after rest ∧ tokensAfter (pre ++ gaps ++ c :: cs) rest = us := by
  obtain ⟨gaps, k, c, cs, rest, rfl, ht, hrest⟩ := exists_first_piece h
  refine ⟨gaps, k, c, cs, rest, rfl, isGap_of_lexed hlexed, ht, hlexed.right, ?_, hrest⟩
  cases hlexed.right with
  | token _ _ rest => exact rest

/-- A token that is always written with the same character. -/
theorem exists_mark {pre after : List Char} {ps : List Piece} {t : Token} {us : List Token}
    {d : Char} (hlexed : Lexed after ps) (h : tokensAfter pre ps = t :: us)
    (hd : ∀ c cs qs, Lexed after (.token t.kind c cs :: qs) → c = d ∧ cs = []) :
    ∃ (gaps : List Char) (rest : List Piece),
      ps = gaps.map .gap ++ .token t.kind d [] :: rest ∧ (∀ d ∈ gaps, isGap d = true) ∧
      t.stop = (pre ++ gaps ++ [d]).length ∧ Lexed after rest ∧
      tokensAfter (pre ++ gaps ++ [d]) rest = us := by
  obtain ⟨gaps, k, c, cs, rest, rfl, hgaps, rfl, htoken, hrest, hus⟩ := exists_token hlexed h
  obtain ⟨rfl, rfl⟩ := hd c cs rest htoken
  exact ⟨gaps, rest, rfl, hgaps, by simp [tokenAfter, Nat.add_assoc], hrest, hus⟩

/-- A comma, or nothing, among the pieces after a closing brace. -/
theorem exists_comma {pre after : List Char} {ps : List Piece} {closing : Token}
    {comma : Option Token} {us : List Token} (hlexed : Lexed after ps)
    (hclosing : closing.stop = pre.length) (hcomma : ∀ t ∈ comma, t.kind = .comma)
    (h : tokensAfter pre ps = comma.toList ++ us) :
    ∃ commaGap rest, ps = commaAfter commaGap ++ rest ∧
      (∀ gaps, commaGap = some gaps → ∀ c ∈ gaps, isGap c = true) ∧
      commaGap.isSome = comma.isSome ∧
      stopAfter closing comma.toList [] = (pre ++ charsOf (commaAfter commaGap)).length ∧
      tokensAfter (pre ++ charsOf (commaAfter commaGap)) rest = us := by
  cases comma with
  | none =>
    refine ⟨none, ps, rfl, (fun _ h => nomatch h), rfl, ?_, ?_⟩
    · simp [stopAfter, commaAfter, hclosing]
    · simpa [commaAfter] using h
  | some t =>
    have ht : t.kind = .comma := hcomma t rfl
    obtain ⟨gaps, rest, rfl, hgaps, hstop, -, hus⟩ := exists_mark (d := ',') hlexed h
      fun c cs qs hq => eq_mark_of_lexed hq (by rw [ht]; rfl)
    refine ⟨some gaps, rest, by simp [commaAfter, ht], (fun _ h => by cases h; exact hgaps), rfl,
      ?_, ?_⟩
    · simpa [stopAfter, commaAfter, Nat.add_assoc] using hstop
    · simpa [commaAfter] using hus

theorem MapItem.Valid.exists_core {i : MapItem} (h : i.Valid) {pre after : List Char}
    {ps : List Piece} (us : List Token) (hlexed : Lexed after ps)
    (htokens : tokensAfter pre ps =
      i.key :: i.sign :: i.opening :: (i.inside ++ i.closing :: (i.comma.toList ++ us))) :
    ∃ (gaps : List Char) (c : Core) (rest : List Piece),
      ps = gaps.map .gap ++ (c.pieces ++ rest) ∧ (∀ d ∈ gaps, isGap d = true) ∧ c.Valid i.name ∧
      c.commaGap.isSome = i.comma.isSome ∧ i.key.start = (pre ++ gaps).length ∧
      i.stop = (pre ++ gaps ++ charsOf c.pieces).length ∧
      tokensAfter (pre ++ gaps ++ charsOf c.pieces) rest = us := by
  have hname := h.key
  obtain ⟨gaps, k, head, tail, signed, rfl, hgaps, hkey, htoken, hlexed₁, hsigned⟩ :=
    exists_token hlexed htokens
  rw [hkey] at hname
  have hsolid := isBlank_of_keyOf? (lexeme_of_lexed htoken) hname
  obtain ⟨signGap, opened, rfl, hsignGap, -, hlexed₂, hopened⟩ := exists_mark (d := '=')
    hlexed₁ hsigned fun c cs qs hq => eq_equals_of_lexed (by rwa [h.sign] at hq)
  obtain ⟨openGap, valued, rfl, hopenGap, -, hlexed₃, hvalued⟩ := exists_mark (d := '\x7b')
    hlexed₂ hopened fun c cs qs hq => eq_mark_of_lexed hq (by rw [h.opening]; rfl)
  obtain ⟨inside, closed, rfl, hinside, hclosed⟩ := exists_split_pieces hvalued
  obtain ⟨closeGap, commaed, rfl, -, hclosing, hlexed₄, hcommaed⟩ := exists_mark (d := '\x7d')
    hlexed₃.right hclosed fun c cs qs hq => eq_mark_of_lexed hq (by rw [h.closing]; rfl)
  obtain ⟨commaGap, rest, rfl, hcommaGap, hcomma, hstop, hrest⟩ := exists_comma hlexed₄
    hclosing h.comma hcommaed
  have hnested : Nested (kindsOf (inside ++ closeGap.map .gap)) := by
    rw [kindsOf_append, kindsOf_gaps, List.append_nil, ← map_kind_tokensAfter, hinside]
    exact h.inside
  refine ⟨gaps, ⟨k, head, tail, signGap, openGap, inside ++ closeGap.map .gap, commaGap⟩, rest,
    ?_, hgaps, ⟨hname, hsignGap, hopenGap, hsolid, hnested, hcommaGap⟩, hcomma, ?_, ?_, ?_⟩
  · simp [Core.pieces, Core.openPieces, Core.commaPieces, h.sign, h.opening, h.closing]
  · rw [hkey]
    rfl
  · rw [MapItem.stop, hstop]
    simp [Core.pieces, Core.openPieces, Core.commaPieces, Nat.add_assoc]
  · rw [← hrest]
    simp [Core.pieces, Core.openPieces, Core.commaPieces]

/-- What a block takes along after its core, and the rest of the tokens up to the next key. -/
theorem MapItem.Valid.exists_tail {i : MapItem} {is : List MapItem} (h : i.Valid)
    (his : ∀ j ∈ is, j.Valid) (hapart : is ≠ [] → i.Apart) {cs pre after : List Char}
    {ps : List Piece} (hcs : cs = pre ++ (charsOf ps ++ after)) (hpre : Stale pre)
    (hlexed : Lexed after ps) (htokens : tokensAfter pre ps = i.after ++ is.flatMap tokens) :
    ∃ (tail rest : List Piece) (taken us : List Token), ps = tail ++ rest ∧ Tail tail ∧
      i.after = taken ++ us ∧ (∀ t ∈ taken, firstOnLine cs t.start = false) ∧
      (∀ t ∈ i.after.head?, t.kind = .comment → t.stop ≤ (pre ++ charsOf tail).length) ∧
      tokensAfter (pre ++ charsOf tail) rest = us ++ is.flatMap tokens ∧
      (tail = [] → ∀ k ∈ (kindsOf rest).head?,
        k ≠ .comment ∧ (i.comma.isSome = false → k = .newline)) := by
  have hkinds : kindsOf ps = (i.after ++ is.flatMap tokens).map Token.kind := by
    rw [← map_kind_tokensAfter pre, htokens]
  cases hafter : i.after with
  | nil =>
    refine ⟨[], ps, [], [], rfl, .none, rfl, (fun _ ht => nomatch ht), (fun _ ht => nomatch ht), ?_,
      fun _ k hk => ?_⟩
    · simpa [hafter] using htokens
    rw [hkinds, hafter] at hk
    cases is with
    | nil => cases hk
    | cons j js =>
      have hj : keyOf? j.key = some j.name := (his j (List.mem_cons_self ..)).key
      obtain rfl : j.key.kind = k := by simpa [tokens] using hk
      refine ⟨fun hkind => by simp [keyOf?, hkind] at hj, fun hcomma => ?_⟩
      rcases hapart (by simp) with hcomma' | ⟨t, ht, -⟩
      · simp [hcomma] at hcomma'
      · simp [hafter] at ht
  | cons t us =>
    rw [hafter, List.cons_append] at htokens
    have ht : t.kind = .newline ∨ t.kind = .comment :=
      isSpacing_kind (h.after t (by simp [hafter]))
    rcases ht with ht | ht
    · refine ⟨[], ps, [], t :: us, rfl, .none, rfl, (fun _ ht => nomatch ht), ?_, ?_,
        fun _ k hk => ?_⟩
      · intro u hu hkind
        cases hu
        rw [ht] at hkind
        cases hkind
      · simpa using htokens
      rw [hkinds, hafter] at hk
      obtain rfl : t.kind = k := by simpa using hk
      rw [ht]
      exact ⟨by simp, fun _ => rfl⟩
    · obtain ⟨gaps, k, c, ds, rest, rfl, hgaps, rfl, htoken, -, hus⟩ := exists_token hlexed htokens
      obtain rfl : k = .comment := ht
      refine ⟨gaps.map .gap ++ [.token .comment c ds], rest, [tokenAfter (pre ++ gaps) .comment c ds],
        us, by simp, .comment hgaps (commentChars_of_lexeme (lexeme_of_lexed htoken)), rfl, ?_, ?_,
        ?_, fun hnil => by simp at hnil⟩
      · intro t ht
        have e : cs = (pre ++ gaps) ++ (c :: (ds ++ (charsOf rest ++ after))) := by simp [hcs]
        rw [List.mem_singleton.1 ht, e]
        exact (firstOnLine_append (pre ++ gaps) _).trans (hpre.append (newline_not_mem_gaps hgaps))
      · intro u hu _
        cases hu
        simp [tokenAfter]
        omega
      · simpa using hus

/-- Comments that are not first on their lines need not be taken along. -/
theorem Covers.append {cs : List Char} {ts us : List Token} {is : List MapItem} {es : List Entry}
    (h : Covers cs us is es) (ht : ∀ t ∈ ts, firstOnLine cs t.start = false) :
    Covers cs (ts ++ us) is es := by
  cases h with
  | nil => exact .nil
  | cons key start stop comments remark rest =>
    refine .cons key start stop (fun t hmem hkind hfirst => ?_) remark rest
    rcases List.mem_append.1 hmem with hmem | hmem
    · rw [ht t hmem] at hfirst
      cases hfirst
    · exact comments t hmem hkind hfirst

/-- A block begins before every comment that stands before its key, first on its line. -/
theorem Leads.takes {junk lead : List Piece} (h : Leads false junk lead) {cs pre after : List Char}
    (hcs : cs = pre ++ (charsOf (junk ++ lead) ++ after)) (hpre : Stale pre) {t : Token}
    (ht : t ∈ tokensAfter pre (junk ++ lead)) (hkind : t.kind = .comment)
    (hfirst : firstOnLine cs t.start = true) :
    (pre ++ charsOf junk).length ≤ t.start ∧ t.stop ≤ (pre ++ charsOf (junk ++ lead)).length := by
  rw [charsOf_append, List.append_assoc] at hcs
  rw [tokensAfter_append] at ht
  rcases List.mem_append.1 ht with ht | ht
  · rw [h.quiet hcs hpre t ht hkind] at hfirst
    cases hfirst
  · obtain ⟨hlow, -, hhigh⟩ := mem_tokensAfter ht
    rw [charsOf_append, ← List.append_assoc]
    exact ⟨hlow, hhigh⟩

/-- The entry of a block takes an item along, with the comments before its key that are first on
their lines and with a comment that follows directly. -/
structure Block.Takes (cs pre : List Char) (before : List Token) (i : MapItem) (b : Block) :
    Prop where
  key : b.key = i.name
  start : (b.entryAfter pre).start ≤ i.key.start
  stop : i.stop ≤ (b.entryAfter pre).stop
  comments : ∀ t ∈ before, t.kind = .comment → firstOnLine cs t.start = true →
    (b.entryAfter pre).start ≤ t.start ∧ t.stop ≤ (b.entryAfter pre).stop
  remark : ∀ t ∈ i.after.head?, t.kind = .comment → t.stop ≤ (b.entryAfter pre).stop

/-- The pieces of an item, with those before it and with what follows it directly, are a block. -/
theorem MapItem.Valid.exists_block {i : MapItem} {is : List MapItem} (h : i.Valid)
    (his : ∀ j ∈ is, j.Valid) (hapart : is ≠ [] → i.Apart) {cs pre after : List Char}
    {ps : List Piece} {before : List Token} (hcs : cs = pre ++ (charsOf ps ++ after))
    (hpre : Stale pre) (hlexed : Lexed after ps)
    (htokens : tokensAfter pre ps = before ++ (i.tokens ++ is.flatMap tokens))
    (hbefore : ∀ t ∈ before, isSpacing t = true) :
    ∃ (b : Block) (rest : List Piece) (taken us : List Token), ps = b.pieces ++ rest ∧ b.Valid ∧
      b.Ends rest ∧ b.Takes cs pre before i ∧ i.after = taken ++ us ∧
      (∀ t ∈ taken, firstOnLine cs t.start = false) ∧
      tokensAfter (pre ++ charsOf b.pieces) rest = us ++ is.flatMap tokens := by
  obtain ⟨spacers, ps, rfl, hspacers, hitems⟩ := exists_split_pieces htokens
  obtain ⟨gaps, core, ps, rfl, hgaps, hcore, hcomma, hstart, hstop, hafter⟩ :=
    h.exists_core (i.after ++ is.flatMap tokens) hlexed.right (by simpa [tokens] using hitems)
  have hspacer : ∀ p ∈ spacers ++ gaps.map .gap, Spacer p := by
    intro p hp
    rcases List.mem_append.1 hp with hp | hp
    · exact spacers_of_lexed hlexed.left (hspacers ▸ hbefore) p hp
    · obtain ⟨c, hc, rfl⟩ := List.mem_map.1 hp
      exact .gap (hgaps c hc)
  obtain ⟨junk, lead, hsplit, hleads⟩ := exists_leads hspacer false
  have hchars : pre ++ charsOf spacers ++ gaps = pre ++ charsOf (junk ++ lead) := by
    rw [← hsplit, charsOf_append, charsOf_gaps, List.append_assoc]
  have hbegins : tokensAfter pre spacers = tokensAfter pre (junk ++ lead) := by
    rw [← hsplit, tokensAfter_append, tokensAfter_gaps, List.append_nil]
  have hends : ∀ tail, pre ++ charsOf (Block.pieces ⟨i.name, junk, lead, core, tail⟩) =
      pre ++ charsOf (junk ++ lead) ++ charsOf core.pieces ++ charsOf tail := by
    intro tail
    simp [Block.pieces, Block.kept]
  rw [hchars] at hstart hstop hafter
  -- the block without its tail already ends on a line that is not blank
  have hstale := Block.Valid.stale (b := ⟨i.name, junk, lead, core, []⟩) ⟨hleads, hcore, .none⟩ pre
  rw [hends, charsOf_nil, List.append_nil] at hstale
  have hcs' : cs = pre ++ (charsOf (junk ++ lead) ++
      (charsOf core.pieces ++ (charsOf ps ++ after))) := by
    rw [← hsplit, hcs]
    simp
  have hcs'' : cs = pre ++ charsOf (junk ++ lead) ++ charsOf core.pieces ++
      (charsOf ps ++ after) := by
    rw [hcs']
    simp
  obtain ⟨tail, rest, taken, us, rfl, htail, htaken, hquiet, hremark, hrest, hfollow⟩ :=
    h.exists_tail his hapart hcs'' hstale hlexed.right.right.right hafter
  have hlow : (pre ++ charsOf junk).length ≤ (pre ++ charsOf (junk ++ lead)).length := by
    simp only [charsOf_append, List.length_append]
    omega
  have hhigh : (pre ++ charsOf (junk ++ lead) ++ charsOf core.pieces).length ≤
      (pre ++ charsOf (Block.pieces ⟨i.name, junk, lead, core, tail⟩)).length := by
    rw [hends]
    simp only [List.length_append]
    omega
  refine ⟨⟨i.name, junk, lead, core, tail⟩, rest, taken, us, ?_, ⟨hleads, hcore, htail⟩,
    fun hnil k hk => ⟨(hfollow hnil k hk).1, fun hnone => (hfollow hnil k hk).2 ?_⟩,
    ⟨rfl, hstart ▸ hlow, hstop ▸ hhigh, fun t ht hkind hfirst => ?_, fun t ht hkind => ?_⟩,
    htaken, hquiet, by rw [hends]; exact hrest⟩
  · rw [← List.append_assoc, hsplit]
    simp [Block.pieces, Block.kept]
  · rw [← hcomma, show core.commaGap = none from hnone]
    rfl
  · rw [← hspacers, hbegins] at ht
    obtain ⟨hbegin, hend⟩ := hleads.takes hcs' hpre ht hkind hfirst
    rw [List.length_append] at hhigh
    exact ⟨hbegin, by dsimp only [Block.entryAfter]; omega⟩
  · dsimp only [Block.entryAfter]
    rw [hends]
    exact hremark t ht hkind

/-- The pieces of items that are set apart are blocks, one after another. -/
theorem exists_arranged {is : List MapItem} {cs pre after : List Char} {ps : List Piece}
    {before : List Token} (hcs : cs = pre ++ (charsOf ps ++ after)) (hpre : Stale pre)
    (hlexed : Lexed after ps) (htokens : tokensAfter pre ps = before ++ is.flatMap MapItem.tokens)
    (hbefore : ∀ t ∈ before, isSpacing t = true) (his : ∀ i ∈ is, i.Valid)
    (hapart : ∀ i ∈ is.dropLast, i.Apart) :
    ∃ bs trail, ps = regionPieces bs trail ∧ Arranged bs trail ∧
      bs.map Block.key = is.map MapItem.name ∧ Covers cs before is (entriesAfter pre bs) := by
  -- what follows an item up to the next key is what stands before the next item
  induction is generalizing pre ps before with
  | nil =>
    rw [List.flatMap_nil, List.append_nil] at htokens
    exact ⟨[], ps, rfl, .nil (spacers_of_lexed hlexed (htokens ▸ hbefore)), rfl, .nil⟩
  | cons i is ih =>
    have hi : i.Valid := his i (List.mem_cons_self ..)
    have his' : ∀ j ∈ is, j.Valid := fun j hj => his j (List.mem_cons_of_mem i hj)
    have hapart' : is ≠ [] → i.Apart := fun hne => by
      rw [List.dropLast_cons_of_ne_nil hne] at hapart
      exact hapart i (List.mem_cons_self ..)
    have hapart'' : ∀ j ∈ is.dropLast, j.Apart := fun j hj => by
      have hne : is ≠ [] := fun hnil => by simp [hnil] at hj
      rw [List.dropLast_cons_of_ne_nil hne] at hapart
      exact hapart j (List.mem_cons_of_mem i hj)
    obtain ⟨b, rest, taken, us, rfl, hvalid, hends, htakes, htaken, hquiet, hrest⟩ :=
      hi.exists_block his' hapart' hcs hpre hlexed htokens hbefore
    have hus : ∀ t ∈ us, isSpacing t = true := fun t ht =>
      hi.after t (htaken ▸ List.mem_append_right _ ht)
    obtain ⟨bs, trail, rfl, harranged, hkeys, hcovers⟩ := ih (by rw [hcs]; simp)
      (hvalid.stale pre) hlexed.right hrest hus his' hapart''
    refine ⟨b :: bs, trail, by simp [regionPieces], .cons hvalid hends harranged,
      by simp [hkeys, htakes.key], ?_⟩
    refine .cons htakes.key htakes.start htakes.stop htakes.comments htakes.remark ?_
    rw [htaken]
    exact hcovers.append hquiet

end InstanceInventory.Document
