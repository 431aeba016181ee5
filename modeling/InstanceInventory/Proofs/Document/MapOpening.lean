import InstanceInventory.Proofs.Document.Matching
import InstanceInventory.Proofs.Document.Opening
import InstanceInventory.Proofs.Document.Passage
import InstanceInventory.Proofs.Literal.Multiline

/-! # The brace that opens the map of instances

* `exists_of_opensBlockChars`: what a line holds that looks like the opening of a block.
* `blankPiece`, `assignedPieces`: blanks, and a name with an equals sign, as they are read at the
  beginning of a line.
* `Overhangs`: a comment or a string with a template inside of which a line begins.
* `endsAssigned_of_line`: what stands before the brace of a line that begins between tokens.
* `map_opens_after_name`: the brace that opens the map stands after the name of the map and an equals
  sign, unless its line begins inside a comment or a string.
-/

namespace InstanceInventory.Document
set_option autoImplicit false
open Literal
variable {text : String} {cs ws ws' ws'' : List Char} {ts before : List Token} {t o : Token}

/-! ## Lines that open a block -/

theorem exists_of_trimStart {c : Char} {rest : List Char} (h : Text.trimStart cs = c :: rest) :
    ∃ ws, Text.allBlank ws = true ∧ cs = ws ++ c :: rest :=
  ⟨cs.takeWhile Text.isBlank, List.all_takeWhile, by
    rw [← h, Text.trimStart, List.takeWhile_append_dropWhile]⟩

theorem exists_of_assignsBlock (h : assignsBlock cs = true) :
    ∃ ws ws' rest, Text.allBlank ws = true ∧ Text.allBlank ws' = true ∧
      cs = ws ++ '=' :: (ws' ++ '\x7b' :: rest) := by
  unfold assignsBlock at h
  split at h
  · next rest hequals =>
    rw [beq_iff_eq, List.head?_eq_some_iff] at h
    obtain ⟨rest', hbrace⟩ := h
    obtain ⟨ws, hws, rfl⟩ := exists_of_trimStart hequals
    obtain ⟨ws', hws', rfl⟩ := exists_of_trimStart hbrace
    exact ⟨ws, ws', rest', hws, hws', rfl⟩
  · cases h

/-- A line that looks like the opening of a block holds a name, an equals sign and a brace, with
blanks before each. -/
theorem exists_of_opensBlockChars {name : List Char} (h : opensBlockChars name cs = true) :
    ∃ ws ws' ws'' rest, Text.allBlank ws = true ∧ Text.allBlank ws' = true ∧
      Text.allBlank ws'' = true ∧
      cs = ws ++ (name ++ (ws' ++ '=' :: (ws'' ++ '\x7b' :: rest))) := by
  induction cs with
  | nil => cases h
  | cons c cs ih =>
    rw [opensBlockChars, Bool.or_eq_true, Bool.and_eq_true] at h
    rcases h with hnames | ⟨hc, hrest⟩
    · rw [namesBlock, Bool.and_eq_true, List.isPrefixOf_iff_prefix] at hnames
      obtain ⟨⟨after, hafter⟩, hassigns⟩ := hnames
      rw [← hafter, List.drop_left] at hassigns
      obtain ⟨ws', ws'', rest, hws', hws'', rfl⟩ := exists_of_assignsBlock hassigns
      exact ⟨[], ws', ws'', rest, rfl, hws', hws'', hafter.symm⟩
    · obtain ⟨ws, ws', ws'', rest, hws, hws', hws'', rfl⟩ := ih hrest
      exact ⟨c :: ws, ws', ws'', rest, by rw [Text.allBlank, List.all_cons, hc]; exact hws, hws', hws'',
        rfl⟩

/-! ## Blanks and names as pieces -/

/-- A blank as a piece: a character between tokens, or a token by itself. -/
def blankPiece (c : Char) : Piece :=
  if isGap c then .gap c else .token .operator c []

/-- A token that is a blank character. -/
def IsBlankToken (t : Token) : Prop :=
  t.kind = .operator ∧ ∃ c, t.text = String.ofList [c] ∧ Text.isBlank c = true ∧ isGap c = false

@[simp] theorem charsOf_blankPieces (ws : List Char) : charsOf (ws.map blankPiece) = ws := by
  induction ws with
  | nil => rfl
  | cons c ws ih =>
    rw [List.map_cons, blankPiece]
    split
    · rw [charsOf_gap, ih]
    · rw [charsOf_token, ih, List.nil_append]

theorem lexed_blankPieces {after : List Char} (hws : Text.allBlank ws = true) (hline : '\n' ∉ ws) :
    Lexed after (ws.map blankPiece) := by
  induction ws with
  | nil => exact .nil
  | cons c ws ih =>
    rw [Text.allBlank, List.all_cons, Bool.and_eq_true] at hws
    rw [List.mem_cons, not_or] at hline
    have hrest := ih hws.2 hline.2
    rw [List.map_cons, blankPiece]
    split
    · next hgap => exact .gap hgap hrest
    · next hgap =>
      exact .token (by simpa using hgap) (fun line => lexeme_blank hws.1 (Ne.symm hline.1) line _) hrest

theorem isBlankToken_of_mem {pre : List Char} (hws : Text.allBlank ws = true)
    (ht : t ∈ tokensAfter pre (ws.map blankPiece)) : IsBlankToken t := by
  induction ws generalizing pre with
  | nil => cases ht
  | cons c ws ih =>
    rw [Text.allBlank, List.all_cons, Bool.and_eq_true] at hws
    rw [List.map_cons, blankPiece] at ht
    split at ht
    · have e : Piece.gap c :: ws.map blankPiece = [c].map .gap ++ ws.map blankPiece := rfl
      rw [e, tokensAfter_append, tokensAfter_gaps, List.nil_append] at ht
      exact ih hws.2 ht
    · next hgap =>
      rw [tokensAfter_cons, List.mem_cons] at ht
      rcases ht with rfl | ht
      · exact ⟨rfl, c, rfl, hws.1, by simpa using hgap⟩
      · exact ih hws.2 ht

/-- The pieces of a name and an equals sign, with blanks before each and after the sign. -/
def assignedPieces (ws : List Char) (c : Char) (name ws' ws'' : List Char) : List Piece :=
  ws.map blankPiece ++ .token .ident c name ::
    (ws'.map blankPiece ++ .token .equals '=' [] :: ws''.map blankPiece)

theorem charsOf_assignedPieces (c : Char) (name : List Char) :
    charsOf (assignedPieces ws c name ws' ws'') = ws ++ (c :: name ++ (ws' ++ '=' :: ws'')) := by
  simp [assignedPieces]

theorem kindsOf_blankPieces (ws : List Char) : .openBrace ∉ kindsOf (ws.map blankPiece) := by
  induction ws with
  | nil => exact List.not_mem_nil
  | cons c ws ih =>
    rw [List.map_cons, blankPiece]
    split
    · exact ih
    · rw [kindsOf, List.mem_cons, not_or]
      exact ⟨by simp, ih⟩

theorem flat_assignedPieces (c : Char) (name : List Char) :
    .openBrace ∉ kindsOf (assignedPieces ws c name ws' ws'') := by
  simp [assignedPieces, kindsOf_append, kindsOf, kindsOf_blankPieces]

/-- What stands after blanks begins with a blank or with what stands there. -/
theorem head?_blanks {p : Char → Prop} (hws : Text.allBlank ws = true)
    (hblank : ∀ d, Text.isBlank d = true → p d) (hcs : ∀ d ∈ cs.head?, p d) :
    ∀ d ∈ (ws ++ cs).head?, p d := by
  cases ws with
  | nil => exact hcs
  | cons c ws =>
    intro d hd
    cases hd
    exact hblank c (List.all_eq_true.1 hws c (List.mem_cons_self ..))

theorem lexed_assignedPieces {c : Char} {name rest : List Char} (hc : isNameStart c = true)
    (hname : ∀ d ∈ name, isNameChar d = true) (hws : Text.allBlank ws = true)
    (hws' : Text.allBlank ws' = true) (hws'' : Text.allBlank ws'' = true)
    (hline : '\n' ∉ ws ++ (ws' ++ ws'')) :
    Lexed ('\x7b' :: rest) (assignedPieces ws c name ws' ws'') := by
  simp only [List.mem_append, not_or] at hline
  have hsign : Lexed ('\x7b' :: rest) (.token .equals '=' [] :: ws''.map blankPiece) := by
    refine .token rfl (fun line => lexeme_sign ?_ line) (lexed_blankPieces hws'' hline.2.2)
    rw [List.nil_append, charsOf_blankPieces]
    refine head?_blanks hws'' (fun d hd => ?_) ?_
    · constructor <;> rintro rfl <;> exact absurd hd (by decide)
    · simp
  refine (lexed_blankPieces hws hline.1).append (.token (isGap_of_isNameStart hc) (fun line => ?_)
    ((lexed_blankPieces hws' hline.2.1).append hsign))
  refine lexeme_word hc hname line ?_
  rw [charsOf_append, charsOf_blankPieces, List.append_assoc]
  exact head?_blanks hws' (fun d => isNameChar_of_isBlank) (by simp [isNameChar, isNameStart])

/-- Tokens that end with a name and an equals sign, where nothing but blank characters that are
tokens stands between the two and after them. -/
def EndsAssigned (name : String) (before : List Token) : Prop :=
  ∃ front key gaps sign gaps', before = front ++ key :: (gaps ++ sign :: gaps') ∧
    key.kind = .ident ∧ key.text = name ∧ sign.kind = .equals ∧
    ∀ t ∈ gaps ++ gaps', IsBlankToken t

theorem endsAssigned_of_pieces {pre : List Char} {c : Char} {name : List Char}
    (hws' : Text.allBlank ws' = true) (hws'' : Text.allBlank ws'' = true)
    (h : before = ts ++ tokensAfter pre (assignedPieces ws c name ws' ws'')) :
    EndsAssigned (String.ofList (c :: name)) before := by
  rw [assignedPieces, tokensAfter_append, tokensAfter_cons, tokensAfter_append, tokensAfter_cons] at h
  refine ⟨_, _, _, _, _, h.trans (List.append_assoc ..).symm, rfl, rfl, rfl, fun t ht => ?_⟩
  rcases List.mem_append.1 ht with ht | ht
  · exact isBlankToken_of_mem hws' ht
  · exact isBlankToken_of_mem hws'' ht

/-! ## The line of the brace -/

theorem exists_above (cs : List Char) :
    ∃ above, cs = above ++ (Text.lastLine cs).reverse ∧ (above = [] ∨ ∃ x, above = x ++ ['\n']) := by
  refine ⟨(cs.reverse.dropWhile (· != '\n')).reverse, ?_, ?_⟩
  · rw [Text.lastLine, ← List.reverse_append, List.takeWhile_append_dropWhile, List.reverse_reverse]
  · cases hdrop : cs.reverse.dropWhile (· != '\n') with
    | nil => exact .inl rfl
    | cons c ds =>
      have hc := List.head_dropWhile_not (p := (· != '\n')) (l := cs.reverse) (by simp [hdrop])
      simp only [hdrop, List.head_cons, bne_eq_false_iff_eq] at hc
      exact .inr ⟨ds.reverse, by rw [hc, List.reverse_cons]⟩

theorem exists_line_at {above line : List Char} (rest : List Char)
    (habove : above = [] ∨ ∃ x, above = x ++ ['\n']) (hline : '\n' ∉ line) :
    ∃ more, (Text.lineChars (above ++ (line ++ rest)))[above.count '\n']? = some (line ++ more) := by
  rcases habove with rfl | ⟨x, rfl⟩
  · obtain ⟨more, ls, hmore⟩ := Text.exists_lineChars_cons hline rest
    exact ⟨more, by rw [List.nil_append, hmore]; rfl⟩
  · obtain ⟨more, hmore⟩ := Text.exists_line_after hline x rest
    exact ⟨more, by rw [List.append_assoc, List.singleton_append, hmore]⟩

/-- A comment or a string with a template that begins before the line of a place and ends after its
beginning. -/
structure Overhangs (cs : List Char) (place : Nat) (t : Token) : Prop where
  kind : t.kind = .comment ∨ ∃ s, t.kind = .string s true
  start : t.start < lineStart cs place
  stop : lineStart cs place < t.stop

/-- A token inside of which the line of a brace begins is a comment or a string with a template: a
heredoc leaves no room for the brace. -/
theorem kind_of_overhanging {u ds w x line back : List Char} {c : Char} {k : Token.Kind}
    (hsplit : u ++ (c :: (ds ++ w)) = x ++ '\n' :: line) (hline : '\n' ∉ line)
    (hstart : u.length ≤ x.length) (hstop : x.length < u.length + ds.length)
    (hread : lexeme 0 c (ds ++ (w ++ '\x7b' :: back)) = .ok (k, ds.length)) :
    k = .comment ∨ ∃ s, k = .string s true := by
  obtain ⟨a, rfl⟩ : ∃ a, x = u ++ a :=
    (List.prefix_of_prefix_length_le ⟨_, hsplit⟩ (List.prefix_append x _) hstart).imp fun _ => Eq.symm
  rw [List.append_assoc] at hsplit
  replace hsplit := List.append_cancel_left hsplit
  rw [List.length_append] at hstop
  cases a with
  | nil =>
    obtain ⟨rfl, -⟩ := List.cons.inj hsplit
    obtain ⟨-, hlength⟩ := Prod.mk.inj (Except.ok.inj hread)
    rw [← hlength] at hstop
    exact absurd hstop (by simp)
  | cons d a =>
    obtain ⟨rfl, hrest⟩ := List.cons.inj hsplit
    obtain ⟨b, rfl⟩ : ∃ b, ds = a ++ '\n' :: b := by
      have hprefix : a ++ ['\n'] <+: ds :=
        List.prefix_of_prefix_length_le ⟨line, by rw [hrest]; simp⟩ (List.prefix_append ds w) (by
          simp only [List.length_cons, List.length_append, List.length_nil] at hstop ⊢
          omega)
      exact hprefix.imp fun _ h => by rw [← h]; simp
    rcases spans_of_lexeme hread (by simp) with hcomment | hstring | ⟨-, hfollowed⟩
    · exact .inl hcomment
    · exact .inr hstring
    · exfalso
      have hw : line = b ++ w := by simpa using hrest.symm
      cases w with
      | nil => exact absurd (hfollowed '\x7b' rfl) (by decide)
      | cons d w =>
        refine hline ?_
        rw [hw, ← hfollowed d rfl]
        simp

/-! ## Pieces up to the brace -/

theorem exists_pieces_before {more : List Token} (h : tokenize text = .ok (before ++ o :: more))
    (ho : o.kind = .openBrace) :
    ∃ ps back, text.toList = charsOf ps ++ '\x7b' :: charsOf back ∧
      Lexed [] (ps ++ .token .openBrace '\x7b' [] :: back) ∧ tokensAfter [] ps = before ∧
      o = tokenAfter (charsOf ps) .openBrace '\x7b' [] := by
  obtain ⟨all, hchars, hlexed, htokens⟩ := exists_pieces h
  replace htokens : tokensAfter [] all = before ++ o :: more := htokens
  obtain ⟨qs, rest, rfl, hqs, hrest⟩ := exists_split_pieces htokens
  obtain ⟨gaps, k, c, cs, back, rfl, -, rfl, htoken, -, -⟩ := exists_token hlexed.right hrest
  obtain rfl : k = .openBrace := ho
  obtain ⟨rfl, rfl⟩ := eq_mark_of_lexed htoken (d := '\x7b') rfl
  refine ⟨qs ++ gaps.map .gap, back, by simp [← hchars], by simpa using hlexed, ?_, by simp⟩
  rw [tokensAfter_append, tokensAfter_gaps, List.append_nil, hqs]

theorem kind_of_mem_overhanging {ps back : List Piece} {x line : List Char}
    (hlexed : Lexed [] (ps ++ .token .openBrace '\x7b' [] :: back))
    (hchars : charsOf ps = x ++ '\n' :: line) (hline : '\n' ∉ line) (ht : t ∈ tokensAfter [] ps)
    (hstart : t.start ≤ x.length) (hstop : x.length + 1 < t.stop) :
    t.kind = .comment ∨ ∃ s, t.kind = .string s true := by
  obtain ⟨us, vs, hsplit⟩ := List.append_of_mem ht
  obtain ⟨qs, rest, rfl, -, hrest⟩ := exists_split_pieces hsplit
  obtain ⟨gaps, k, c, cs, rest, rfl, rfl, -⟩ := exists_first_piece hrest
  rw [List.append_assoc, List.append_assoc, List.cons_append] at hlexed
  have hread := lexeme_of_lexed hlexed.right.right
  rw [charsOf_append, charsOf_token, List.append_nil] at hread
  simp only [tokenAfter, List.nil_append] at hstart hstop ⊢
  refine kind_of_overhanging (u := charsOf qs ++ gaps) (w := charsOf rest) ?_ hline hstart
    (by omega) hread
  rw [← hchars]
  simp

theorem openBrace_not_mem_of_allBlank (hws : Text.allBlank ws = true) : '\x7b' ∉ ws :=
  fun hmem => absurd (List.all_eq_true.1 hws _ hmem) (by decide)

theorem openBrace_not_mem_assigned {c : Char} {name : List Char} (hc : isNameStart c = true)
    (hname : ∀ d ∈ name, isNameChar d = true) (hws : Text.allBlank ws = true)
    (hws' : Text.allBlank ws' = true) (hws'' : Text.allBlank ws'' = true) :
    '\x7b' ∉ charsOf (assignedPieces ws c name ws' ws'') := by
  rw [charsOf_assignedPieces]
  simp only [List.mem_append, List.mem_cons, not_or]
  refine ⟨openBrace_not_mem_of_allBlank hws, ⟨?_, fun hmem => absurd (hname _ hmem) (by decide)⟩,
    openBrace_not_mem_of_allBlank hws', by decide, openBrace_not_mem_of_allBlank hws''⟩
  rintro rfl
  exact absurd hc (by decide)

/-- What stands before the first mark stands before any mark. -/
theorem exists_before_mark {mark : Char} {xs ys us vs : List Char}
    (h : xs ++ mark :: us = ys ++ mark :: vs) (hys : mark ∉ ys) :
    ∃ z, xs = ys ++ z ∧ ∀ rest, ∃ more, z ++ mark :: rest = mark :: more := by
  rcases List.append_eq_append_iff.1 h with ⟨a, ha, hrest⟩ | ⟨a, ha, hrest⟩
  · cases a with
    | nil => exact ⟨[], by simpa using ha.symm, fun rest => ⟨rest, rfl⟩⟩
    | cons d a =>
      obtain ⟨rfl, -⟩ := List.cons.inj hrest
      exact absurd (by rw [ha]; simp) hys
  · cases a with
    | nil => exact ⟨[], ha, fun rest => ⟨rest, rfl⟩⟩
    | cons d a =>
      obtain ⟨rfl, -⟩ := List.cons.inj hrest
      exact ⟨mark :: a, ha, fun rest => ⟨a ++ mark :: rest, rfl⟩⟩

/-- The tokens before a brace on a line that begins between tokens, and that looks like the opening
of a block, end with the name of the block and an equals sign. -/
theorem endsAssigned_of_line {front ps back : List Piece} {c : Char} {name more : List Char}
    (hlexed : Lexed [] (front ++ (ps ++ .token .openBrace '\x7b' [] :: back)))
    (hflat : .openBrace ∉ kindsOf ps) (hline : '\n' ∉ charsOf ps) (hc : isNameStart c = true)
    (hname : ∀ d ∈ name, isNameChar d = true)
    (hopens : opensBlockChars (c :: name) (charsOf ps ++ '\x7b' :: more) = true) :
    EndsAssigned (String.ofList (c :: name)) (tokensAfter [] (front ++ ps)) := by
  obtain ⟨ws, ws', ws'', rest, hws, hws', hws'', hpattern⟩ := exists_of_opensBlockChars hopens
  have hhead : charsOf (assignedPieces ws c name ws' ws'') =
      ws ++ (c :: name ++ (ws' ++ '=' :: ws'')) :=
    charsOf_assignedPieces c name
  have heq : charsOf ps ++ '\x7b' :: more =
      charsOf (assignedPieces ws c name ws' ws'') ++ '\x7b' :: rest := by
    rw [hpattern, hhead]
    simp
  -- The brace of the pattern is the brace on the line, or stands before it inside another token.
  obtain ⟨z, hz, hmark⟩ :=
    exists_before_mark heq (openBrace_not_mem_assigned hc hname hws hws' hws'')
  obtain ⟨y, hy⟩ := hmark (charsOf back)
  have hsingle : '\n' ∉ ws ++ (ws' ++ ws'') := by
    rw [hz, hhead] at hline
    simp only [List.mem_append, List.mem_cons, not_or] at hline ⊢
    exact ⟨hline.1.1, hline.1.2.2.1, hline.1.2.2.2.2⟩
  have hread : Lexed ('\x7b' :: y ++ []) (assignedPieces ws c name ws' ws'') :=
    lexed_assignedPieces hc hname hws hws' hws'' hsingle
  have hhere : charsOf (ps ++ .token .openBrace '\x7b' [] :: back) =
      charsOf (assignedPieces ws c name ws' ws'') ++ '\x7b' :: y := by
    rw [charsOf_append, hz, List.append_assoc, ← hy]
    rfl
  obtain ⟨others, hothers, hchars⟩ := Lexed.exists_prefix hread hlexed.right hhere
  obtain ⟨ds, others, rfl⟩ := exists_openBrace (hothers ▸ hlexed.right).right hchars
  obtain rfl := eq_of_append_openBrace hflat (flat_assignedPieces c name) hothers
  exact endsAssigned_of_pieces hws' hws'' (tokensAfter_append [] front _)

/-- Where the line of the brace begins between tokens, the tokens before the brace end with the name
of the map and an equals sign. -/
theorem endsAssigned_of_opens {front ps back : List Piece}
    (hchars : text.toList = charsOf (front ++ ps) ++ '\x7b' :: charsOf back)
    (hlexed : Lexed [] (front ++ (ps ++ .token .openBrace '\x7b' [] :: back)))
    (hfront : charsOf front = [] ∨ ∃ x, charsOf front = x ++ ['\n']) (hline : '\n' ∉ charsOf ps)
    (hopens : Opens (Accepted (Text.lines text) opensInstanceMap 0) (tokensAfter [] (front ++ ps))
      (tokenAfter (charsOf (front ++ ps)) .openBrace '\x7b' [])) :
    EndsAssigned "instances" (tokensAfter [] (front ++ ps)) := by
  have hplace : lineAfterAll 0 (charsOf (front ++ ps)) = (charsOf front).count '\n' := by
    rw [lineAfterAll_eq_count, charsOf_append, List.count_append, List.count_eq_zero_of_not_mem hline]
    omega
  have hadmitted : Accepted (Text.lines text) opensInstanceMap 0 ((charsOf front).count '\n') :=
    hplace ▸ hopens.admitted
  -- Every token on the line stands there too, so no brace stands before this one.
  have hflat : .openBrace ∉ kindsOf ps := by
    intro hmem
    rw [← map_kind_tokensAfter (charsOf front), List.mem_map] at hmem
    obtain ⟨t, ht, hkind⟩ := hmem
    have hall : t ∈ tokensAfter [] (front ++ ps) := by
      rw [tokensAfter_append]
      exact List.mem_append_right _ ht
    obtain ⟨hstart, -, -⟩ := mem_tokensAfter ht
    refine hopens.first t hall hkind ?_
    rwa [line_of_mem_tokensAfter ht, lineAfterAll_eq_count, List.take_append, List.take_of_length_le
      hstart, List.count_append, List.count_eq_zero_of_not_mem fun h => hline (List.mem_of_mem_take h),
      Nat.zero_add, Nat.add_zero]
  obtain ⟨-, l, hl, hopensLine⟩ := hadmitted
  have hlineBrace : '\n' ∉ charsOf ps ++ ['\x7b'] := by simpa using hline
  obtain ⟨more, hmore⟩ := exists_line_at (charsOf back) hfront hlineBrace
  rw [Text.lines, hchars, charsOf_append, List.getElem?_map] at hl
  simp only [List.append_assoc, List.singleton_append] at hl hmore
  rw [hmore] at hl
  cases hl
  simp only [opensInstanceMap, String.toList_ofList] at hopensLine
  replace hopensLine : opensBlockChars ('i' :: "nstances".toList) (charsOf ps ++ '\x7b' :: more) =
      true := hopensLine
  have hname : "nstances".toList.all isNameChar = true := by decide +kernel
  exact endsAssigned_of_line hlexed hflat hline (by decide) (List.all_eq_true.1 hname) hopensLine

/-! ## The map of instances -/

/-- The tokens before the brace that opens the map of instances end with the name of the map and an
equals sign, and nothing but blank characters stands between them; or the line of the brace begins
inside a comment or a string with a template. -/
theorem map_opens_after_name {r : Region} (h : mapRegion? text = .ok (some r)) :
    ∃ before o after, tokenize text = .ok (before ++ o :: after) ∧ o.kind = .openBrace ∧
      o.line = r.start ∧ o.stop = r.openOffset ∧
      (EndsAssigned "instances" before ∨ ∃ t ∈ before, Overhangs text.toList o.start t) := by
  obtain ⟨ts, hts, before, o, inside, c, rest, rfl, hopens, -, rfl⟩ := exists_tokens_of_mapRegion? h
  refine ⟨before, o, _, hts, hopens.kind, rfl, rfl, ?_⟩
  obtain ⟨ps, back, hchars, hlexed, hbefore, ho⟩ := exists_pieces_before hts hopens.kind
  obtain ⟨above, habove, hends⟩ := exists_above (charsOf ps)
  have hline : '\n' ∉ (Text.lastLine (charsOf ps)).reverse := fun hmem =>
    Text.newline_not_mem_lastLine _ (List.mem_reverse.1 hmem)
  have hplace : lineStart text.toList o.start = above.length := by
    have hstart : o.start = (charsOf ps).length := by rw [ho]; rfl
    have hlength := congrArg List.length habove
    rw [List.length_append, List.length_reverse] at hlength
    rw [hchars, hstart, lineStart_append]
    omega
  generalize (Text.lastLine (charsOf ps)).reverse = line at habove hline
  by_cases hover : ∃ t ∈ before, t.start < above.length ∧ above.length < t.stop
  · obtain ⟨t, ht, hstart, hstop⟩ := hover
    refine .inr ⟨t, ht, ?_, hplace ▸ hstart, hplace ▸ hstop⟩
    rcases hends with rfl | ⟨x, rfl⟩
    · cases hstart
    · rw [List.append_assoc, List.singleton_append] at habove
      rw [List.length_append, List.length_singleton] at hstart hstop
      exact kind_of_mem_overhanging hlexed habove hline (hbefore ▸ ht) (by omega) hstop
  · left
    obtain ⟨front, ps, rfl, hfront⟩ : ∃ front rest, ps = front ++ rest ∧
        ([] ++ charsOf front).length = above.length := by
      refine exists_pieces_at (Nat.zero_le _) ?_ fun t ht => ?_
      · rw [List.nil_append, habove, List.length_append]
        exact Nat.le_add_right _ _
      · rw [hbefore] at ht
        have := not_and.1 (fun hand => hover ⟨t, ht, hand⟩)
        omega
    rw [charsOf_append] at habove
    obtain ⟨rfl, rfl⟩ := List.append_inj habove hfront
    rw [List.append_assoc] at hlexed
    subst ho hbefore
    exact endsAssigned_of_opens hchars hlexed hends hline hopens

/-- A document with no map, in which the second line of a comment looks like the opening of one. -/
def overhungText : String :=
  "/*\ninstances = \x7b */ volumes = \x7b\n\x7d\n"

theorem map_opens_after_name_example :
    mapRegion? overhungText = .ok (some ⟨1, 2, 31, 32⟩) ∧
      ∃ before o after, tokenize overhungText = .ok (before ++ o :: after) ∧ o.stop = 31 ∧
        (EndsAssigned "instances" before ∨ ∃ t ∈ before, Overhangs overhungText.toList o.start t) := by
  have h : mapRegion? overhungText = .ok (some ⟨1, 2, 31, 32⟩) := by decide +kernel
  obtain ⟨before, o, after, htokens, -, -, hstop, hopens⟩ := map_opens_after_name h
  exact ⟨h, before, o, after, htokens, hstop, hopens⟩

end InstanceInventory.Document
