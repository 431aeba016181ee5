import InstanceInventory.Proofs.Literal.Leading
import InstanceInventory.Proofs.Literal.Piece
import Mathlib.Tactic.SplitIfs

/-! # What begins at a character

* `Begins`: the kinds of token with the characters that belong to them, as the lexer finds them.
* `lexeme_length`: a token lies within the text.
* `Solid`: characters whose last line is not blank; comments and marks are solid.
* `comment_before_newline`: a comment ends at the latest before a newline.
-/

namespace InstanceInventory.Literal
set_option autoImplicit false

/-! ## Lengths -/

/-- A quoted string takes the characters that are skipped and at least one more. -/
theorem quotedFrom_length {opened line : Nat} {frames : List Frame} {read q : QuotedString}
    {skip : Nat} {cs : List Char} (h : quotedFrom opened line frames read skip cs = .ok q) :
    read.length + skip < q.length ∧ q.length ≤ read.length + cs.length := by
  induction cs generalizing line frames read skip with
  | nil => cases h
  | cons c cs ih =>
    cases skip with
    | succ skip =>
      have := ih h
      simp only [QuotedString.push, List.length_cons] at this ⊢
      omega
    | zero =>
      rw [quotedFrom] at h
      split at h
      · cases h
      · cases h
        simp only [List.length_cons]
        omega
      · have := ih h
        simp only [QuotedString.push, List.length_cons] at this ⊢
        omega

theorem blockCommentLength?_length {cs : List Char} {n : Nat}
    (h : blockCommentLength? cs = some n) : n ≤ cs.length := by
  induction cs generalizing n with
  | nil => cases h
  | cons c cs ih =>
    unfold blockCommentLength? at h
    split at h
    · cases h
      simp_all
    · cases h
    · next hcs =>
      cases hcs
      obtain ⟨m, hm, rfl⟩ := Option.map_eq_some_iff.1 h
      have := ih hm
      rw [List.length_cons]
      omega

/-- The lines of a heredoc with the line that closes it lie within the text. -/
theorem heredocBody?_length {marker piece cs last : List Char} {ls : List (List Char)}
    (h : heredocBody? marker (Text.splitFrom (· == '\n') piece cs) = some (ls, last)) :
    closedLength ls + last.length ≤ piece.length + cs.length := by
  induction cs generalizing piece ls with
  | nil =>
    rw [Text.splitFrom, heredocBody?] at h
    split_ifs at h
    · cases h
      simp [closedLength]
    · simp [heredocBody?] at h
  | cons c cs ih =>
    rw [Text.splitFrom] at h
    split_ifs at h
    · rw [heredocBody?] at h
      split_ifs at h
      · cases h
        simp [closedLength]
      · obtain ⟨b, hb, he⟩ := Option.map_eq_some_iff.1 h
        cases he
        have := ih hb
        simp only [closedLength, List.length_reverse, List.length_cons,
          List.length_nil] at this ⊢
        omega
    · have := ih h
      rw [List.length_cons] at this ⊢
      omega

theorem heredoc_length {line : Nat} {cs : List Char} {o : HeredocOpening} {b : List Char × Nat}
    (h : heredoc line cs o = .ok b) : o.length < b.2 ∧ b.2 ≤ cs.length := by
  unfold heredoc at h
  dsimp only at h
  split at h
  · cases h
  · next ls last hbody =>
    cases h
    split at hbody
    · cases hbody
    · next d rest hdrop =>
      have hlength : (cs.drop o.length).length = rest.length + 1 := by rw [hdrop]; rfl
      rw [List.length_drop] at hlength
      have := heredocBody?_length hbody
      rw [List.length_nil] at this
      dsimp only
      omega

theorem digitChars_length (cs : List Char) : (digitChars cs).length ≤ cs.length :=
  (List.takeWhile_sublist _).length_le

theorem fractionChars_length (cs : List Char) :
    (fractionChars cs).isEmpty = true ∨ (fractionChars cs).length + 1 ≤ cs.length := by
  unfold fractionChars
  split
  · exact .inr (Nat.succ_le_succ (digitChars_length _))
  · exact .inl rfl

theorem exponentPart?_length {cs : List Char} {e : Bool × List Char × Nat}
    (h : exponentPart? cs = some e) : e.2.2 ≤ cs.length := by
  cases cs with
  | nil => cases h
  | cons c cs =>
    rw [exponentPart?] at h
    dsimp only at h
    split_ifs at h with hmark hsigned hempty hempty
    · cases h
      have hcs : cs ≠ [] := by
        rintro rfl
        rcases hsigned with h | h <;> cases h
      have := digitChars_length (cs.drop 1)
      have := List.length_pos_iff.2 hcs
      simp only [List.length_drop, List.length_cons] at *
      omega
    · cases h
      have := digitChars_length cs
      simp only [List.length_cons]
      omega

theorem numberAt_length (cs : List Char) : (numberAt cs).2 ≤ cs.length := by
  have hwhole := digitChars_length cs
  have hfraction := fractionChars_length (cs.drop (digitChars cs).length)
  rw [List.length_drop] at hfraction
  unfold numberAt
  dsimp only
  generalize hlength : (if (fractionChars (cs.drop (digitChars cs).length)).isEmpty = true then 0
    else (fractionChars (cs.drop (digitChars cs).length)).length + 1) = length
  have hlength' : (digitChars cs).length + length ≤ cs.length := by
    rcases hfraction with hempty | hfraction
    · rw [if_pos hempty] at hlength
      omega
    · split_ifs at hlength <;> omega
  split
  · next he =>
    have := exponentPart?_length he
    rw [List.length_drop] at this
    dsimp only at this ⊢
    omega
  · split_ifs
    · exact hwhole
    · exact hlength'

/-! ## Kinds of token -/

/-- What begins at a character before `rest`: a kind of token and the number of characters of `rest`
that belong to it. -/
inductive Begins (line : Nat) (c : Char) (rest : List Char) : Token.Kind → Nat → Prop
  | newline (head : c = '\n') : Begins line c rest .newline 0
  | lineComment (head : c = '#' ∨ (c = '/' ∧ rest.take 1 = ['/'])) :
    Begins line c rest .comment (rest.takeWhile (· != '\n')).length
  | blockComment {n : Nat} (head : c = '/') (mark : rest.take 1 = ['*'])
    (closed : blockCommentLength? (rest.drop 1) = some n) : Begins line c rest .comment (n + 1)
  | quoted {q : QuotedString} (head : c = '"') (read : quotedString line rest = .ok q) :
    Begins line c rest (.string (String.ofList q.value) q.template) q.length
  | heredoc {o : HeredocOpening} {b : List Char × Nat}
    (opening : heredocOpening? (c :: rest) = some o)
    (read : heredoc line (c :: rest) o = .ok b) :
    Begins line c rest (.heredoc (String.ofList b.1)) (b.2 - 1)
  | number (head : Text.isDecimalDigit c = true) :
    Begins line c rest (.number (numberAt (c :: rest)).1) ((numberAt (c :: rest)).2 - 1)
  | name (head : isNameStart c = true) :
    Begins line c rest .ident (rest.takeWhile isNameChar).length
  | comparison (head : c = '=') (mark : rest.take 1 = ['='] ∨ rest.take 1 = ['>']) :
    Begins line c rest .operator 1
  | equals (head : c = '=') : Begins line c rest .equals 0
  | mark : Begins line c rest ((punctuation? c).getD .operator) 0

theorem begins_of_lexeme {line : Nat} {c : Char} {rest : List Char} {k : Token.Kind} {n : Nat}
    (h : lexeme line c rest = .ok (k, n)) : Begins line c rest k n := by
  cases leading c with
  | newline =>
    rw [lexeme_newline] at h
    cases h
    exact .newline rfl
  | hash =>
    rw [lexeme_at_hash] at h
    cases h
    exact .lineComment (.inl rfl)
  | slash =>
    rw [lexeme_at_slash] at h
    split_ifs at h with hline hblock
    · cases h
      exact .lineComment (.inr ⟨rfl, hline⟩)
    · split at h
      · next hclosed =>
        cases h
        exact .blockComment rfl hblock hclosed
      · cases h
    · cases h
      exact .mark
  | quote =>
    obtain ⟨q, hq, rfl, rfl⟩ := (lexeme_at_quote_iff line rest).1 h
    exact .quoted rfl hq
  | angle =>
    obtain ⟨o, b, ho, hb, rfl, rfl⟩ | ⟨-, rfl, rfl⟩ := (lexeme_at_angle_iff line rest).1 h
    · exact .heredoc ho hb
    · exact .mark
  | equals =>
    rw [lexeme_at_equals] at h
    split_ifs at h with hmark
    · cases h
      exact .comparison rfl hmark
    · cases h
      exact .equals rfl
  | digit hdigit =>
    rw [lexeme_at_digit line rest hdigit] at h
    cases h
    exact .number hdigit
  | name hdigit hname =>
    rw [lexeme_at_name line rest hdigit hname] at h
    cases h
    exact .name hname
  | mark hspecial hdigit hname =>
    rw [lexeme_at_mark line rest hspecial hdigit hname] at h
    cases h
    exact .mark

theorem lexeme_length {line : Nat} {c : Char} {rest : List Char} {k : Token.Kind} {n : Nat}
    (h : lexeme line c rest = .ok (k, n)) : n ≤ rest.length := by
  cases begins_of_lexeme h with
  | newline => exact Nat.zero_le _
  | lineComment => exact (List.takeWhile_sublist _).length_le
  | blockComment _ mark closed =>
    have := blockCommentLength?_length closed
    have hrest : rest ≠ [] := by
      rintro rfl
      cases mark
    have := List.length_pos_iff.2 hrest
    rw [List.length_drop] at *
    omega
  | quoted _ read =>
    have := (quotedFrom_length read).2
    rwa [Nat.zero_add] at this
  | heredoc _ read =>
    have := (heredoc_length read).2
    rw [List.length_cons] at this
    omega
  | number =>
    have := numberAt_length (c :: rest)
    rw [List.length_cons] at this
    omega
  | name => exact (List.takeWhile_sublist _).length_le
  | comparison _ mark =>
    have hrest : rest ≠ [] := by
      rintro rfl
      rcases mark with mark | mark <;> cases mark
    exact List.length_pos_iff.2 hrest
  | equals => exact Nat.zero_le _
  | mark => exact Nat.zero_le _

/-! ## Newlines, marks and comments -/

theorem newline_of_lexeme {line : Nat} {c : Char} {rest : List Char} {n : Nat}
    (h : lexeme line c rest = .ok (.newline, n)) : c = '\n' ∧ n = 0 := by
  have hbegins := begins_of_lexeme h
  generalize hk : Token.Kind.newline = k at hbegins
  cases hbegins with
  | newline head => exact ⟨head, rfl⟩
  | mark =>
    unfold punctuation? at hk
    split_ifs at hk <;> cases hk
  | _ => cases hk

theorem equals_of_lexeme {line : Nat} {c : Char} {rest : List Char} {n : Nat}
    (h : lexeme line c rest = .ok (.equals, n)) : c = '=' ∧ n = 0 := by
  have hbegins := begins_of_lexeme h
  generalize hk : Token.Kind.equals = k at hbegins
  cases hbegins with
  | equals head => exact ⟨head, rfl⟩
  | mark =>
    unfold punctuation? at hk
    split_ifs at hk <;> cases hk
  | _ => cases hk

/-- A key begins with a letter, an underscore or a quote. -/
theorem key_of_lexeme {line : Nat} {c : Char} {rest : List Char} {k : Token.Kind} {n : Nat}
    (h : lexeme line c rest = .ok (k, n)) (hk : k = .ident ∨ ∃ s b, k = .string s b) :
    isNameStart c = true ∨ c = '"' := by
  cases begins_of_lexeme h with
  | quoted head => exact .inr head
  | name head => exact .inl head
  | mark =>
    unfold punctuation? at hk
    split_ifs at hk <;> simp at hk
  | _ => simp at hk

/-- A mark is written by its own name. -/
theorem label_of_punctuation? {c : Char} {k : Token.Kind} (h : punctuation? c = some k) :
    k.label = String.ofList [c] := by
  unfold punctuation? at h
  split_ifs at h with h1 h2 h3 h4 h5 h6 h7 h8 <;> cases h
  · rw [h1]
    rfl
  · rw [h2]
    rfl
  · rw [h3]
    rfl
  · rw [h4]
    rfl
  · rw [h5]
    rfl
  · rw [h6]
    rfl
  · rw [h7]
    rfl
  · rw [h8]
    rfl

/-- A token of a kind that a mark writes is that mark. -/
theorem mark_of_lexeme {line : Nat} {c d : Char} {rest : List Char} {k : Token.Kind} {n : Nat}
    (hd : punctuation? d = some k) (h : lexeme line c rest = .ok (k, n)) : c = d ∧ n = 0 := by
  have hlabel := label_of_punctuation? hd
  cases begins_of_lexeme h with
  | mark =>
    cases hc : punctuation? c with
    | none =>
      rw [hc] at hlabel
      exact absurd (congrArg String.length hlabel) (by simp +decide [Token.Kind.label])
    | some k =>
      rw [hc, Option.getD_some, label_of_punctuation? hc] at hlabel
      have := String.ofList_injective hlabel
      cases this
      exact ⟨rfl, rfl⟩
  | equals =>
    unfold punctuation? at hd
    split_ifs at hd <;> cases hd
  | _ => exact absurd (congrArg String.length hlabel) (by simp +decide [Token.Kind.label])

/-- Characters whose last line is not blank. -/
def Solid (cs : List Char) : Prop :=
  ∃ x d y, cs = x ++ d :: y ∧ Text.isBlank d = false ∧ '\n' ∉ y

theorem solid_singleton {c : Char} (hc : Text.isBlank c = false) : Solid [c] :=
  ⟨[], c, [], rfl, hc, List.not_mem_nil⟩

theorem two_le_blockCommentLength? {cs : List Char} {n : Nat}
    (h : blockCommentLength? cs = some n) : 2 ≤ n := by
  induction cs generalizing n with
  | nil => cases h
  | cons c cs ih =>
    unfold blockCommentLength? at h
    split at h
    · cases h
      exact Nat.le_refl 2
    · cases h
    · next hcs =>
      cases hcs
      obtain ⟨m, hm, rfl⟩ := Option.map_eq_some_iff.1 h
      exact Nat.le_succ_of_le (ih hm)

theorem blockCommentLength?_append {u w w' : List Char} {n : Nat}
    (h : blockCommentLength? (u ++ w) = some n) (hn : n ≤ u.length) :
    blockCommentLength? (u ++ w') = some n := by
  have htwo := two_le_blockCommentLength? h
  induction u generalizing n with
  | nil =>
    rw [List.length_nil] at hn
    omega
  | cons c u ih =>
    cases u with
    | nil =>
      rw [List.length_singleton] at hn
      omega
    | cons d u =>
      simp only [List.cons_append] at h ih ⊢
      unfold blockCommentLength? at h ⊢
      split at h
      · next heq =>
        cases heq
        exact h
      · next heq => cases heq
      · next hne heq =>
        cases heq
        obtain ⟨m, hm, rfl⟩ := Option.map_eq_some_iff.1 h
        have hmore := ih hm (by simpa using hn) (two_le_blockCommentLength? hm)
        split
        · next heq =>
          cases heq
          exact absurd rfl (hne _ rfl)
        · next heq => cases heq
        · next heq =>
          cases heq
          rw [hmore]
          rfl

theorem take_blockCommentLength? {cs : List Char} {n : Nat} (h : blockCommentLength? cs = some n) :
    ∃ y, cs.take n = y ++ ['/'] := by
  induction cs generalizing n with
  | nil => cases h
  | cons c cs ih =>
    unfold blockCommentLength? at h
    split at h
    · next heq =>
      cases heq
      cases h
      exact ⟨['*'], rfl⟩
    · cases h
    · next heq =>
      cases heq
      obtain ⟨m, hm, rfl⟩ := Option.map_eq_some_iff.1 h
      obtain ⟨y, hy⟩ := ih hm
      exact ⟨c :: y, by rw [List.take_succ_cons, hy, List.cons_append]⟩

theorem takeWhile_eq_of_length {p : Char → Bool} {cs after : List Char}
    (h : cs.length = ((cs ++ after).takeWhile p).length) : ∀ c ∈ cs, p c = true := by
  induction cs with
  | nil => exact fun _ hc => nomatch hc
  | cons c cs ih =>
    rw [List.cons_append, List.takeWhile_cons] at h
    split_ifs at h with hc
    intro d hd
    rcases List.mem_cons.1 hd with rfl | hd
    · exact hc
    · exact ih (Nat.succ.inj h) d hd

/-- A comment on one line, or one that its own marks close. -/
inductive CommentChars (c : Char) (cs : List Char) : Prop
  | line (head : c = '#' ∨ (c = '/' ∧ cs.take 1 = ['/'])) (tail : '\n' ∉ cs)
  | block (head : c = '/') (mark : cs.take 1 = ['*'])
    (closed : blockCommentLength? (cs.drop 1) = some (cs.length - 1))

theorem commentChars_of_lexeme {line : Nat} {c : Char} {cs after : List Char}
    (h : lexeme line c (cs ++ after) = .ok (.comment, cs.length)) : CommentChars c cs := by
  have hbegins := begins_of_lexeme h
  generalize hk : Token.Kind.comment = k at hbegins
  generalize hn : cs.length = n at hbegins
  cases hbegins with
  | lineComment head =>
    have htail := takeWhile_eq_of_length hn
    refine .line ?_ fun hmem => by simpa using htail '\n' hmem
    rcases head with rfl | ⟨rfl, hmark⟩
    · exact .inl rfl
    · refine .inr ⟨rfl, ?_⟩
      cases cs with
      | nil =>
        rw [List.nil_append] at hn hmark
        cases after with
        | nil => cases hmark
        | cons d after =>
          cases hmark
          cases hn
      | cons d cs => simpa using hmark
  | @blockComment n head mark closed =>
    obtain ⟨d, cs, rfl⟩ := List.exists_cons_of_length_eq_add_one hn
    obtain rfl := Nat.succ.inj hn
    refine .block head (by simpa using mark) ?_
    rw [List.cons_append, List.drop_one, List.tail_cons] at closed
    rw [← List.append_nil ((d :: cs).drop 1)]
    exact blockCommentLength?_append closed (Nat.le_refl _)
  | mark =>
    unfold punctuation? at hk
    split_ifs at hk <;> cases hk
  | _ => cases hk

theorem CommentChars.head {c : Char} {cs : List Char} (h : CommentChars c cs) :
    c = '#' ∨ c = '/' := by
  cases h with
  | line head => exact head.imp_right And.left
  | block head => exact .inr head

theorem CommentChars.solid {c : Char} {cs : List Char} (h : CommentChars c cs) :
    Solid (c :: cs) := by
  cases h with
  | line head tail =>
    refine ⟨[], c, cs, rfl, ?_, tail⟩
    rcases head with rfl | ⟨rfl, -⟩ <;> decide
  | block _ _ closed =>
    obtain ⟨y, hy⟩ := take_blockCommentLength? closed
    have hall : (cs.drop 1).take (cs.length - 1) = cs.drop 1 :=
      List.take_of_length_le (Nat.le_of_eq List.length_drop)
    rw [hall] at hy
    refine ⟨c :: (cs.take 1 ++ y), '/', [], ?_, by decide, List.not_mem_nil⟩
    rw [List.cons_append, List.append_assoc, ← hy, List.take_append_drop]

/-- A comment ends at the latest before a newline. -/
theorem CommentChars.lexeme {c : Char} {cs : List Char} (h : CommentChars c cs) (line : Nat)
    (after : List Char) :
    lexeme line c (cs ++ '\n' :: after) = .ok (.comment, cs.length) := by
  cases h with
  | line head tail =>
    have htake : (cs ++ '\n' :: after).takeWhile (· != '\n') = cs := by
      rw [List.takeWhile_append_of_pos, List.takeWhile_cons_of_neg (by simp), List.append_nil]
      intro d hd
      rw [bne_iff_ne]
      rintro rfl
      exact tail hd
    rcases head with rfl | ⟨rfl, hmark⟩
    · rw [lexeme_at_hash, htake]
    · have hmark' : (cs ++ '\n' :: after).take 1 = ['/'] := by
        cases cs with
        | nil => cases hmark
        | cons d cs => simpa using hmark
      rw [lexeme_at_slash, if_pos hmark', htake]
  | block head mark closed =>
    obtain ⟨d, cs, rfl⟩ : ∃ d ds, cs = d :: ds := by
      cases cs with
      | nil => cases mark
      | cons d cs => exact ⟨d, cs, rfl⟩
    subst head
    obtain rfl : d = '*' := by simpa using mark
    have hclosed : blockCommentLength? (cs ++ '\n' :: after) = some cs.length :=
      blockCommentLength?_append (w := []) (by rw [List.append_nil]; exact closed) (Nat.le_refl _)
    rw [lexeme_at_slash, if_neg (by simp), if_pos (by simp)]
    simp only [List.cons_append, List.drop_one, List.tail_cons, hclosed]
    rfl

end InstanceInventory.Literal
