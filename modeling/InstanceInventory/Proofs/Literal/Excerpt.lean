import InstanceInventory.Proofs.Literal.Atom
import InstanceInventory.Proofs.Literal.Lookahead

/-! # Excerpts of a text

* `tokensFrom_beginning`: a code point of no character that stops the reading of the beginning of a
  text stops the reading of the whole text.
* `tokensFrom_blanks`: blank characters before a text neither help nor hinder its reading.
-/

namespace InstanceInventory.Literal
set_option autoImplicit false
variable {line line' n skip : Nat} {c : Char} {p q : List Char}

/-! ## Quoted strings -/

theorem escape_beginning (h : escape line p = .error (.noSuchCharacter n)) :
    escape line' (p ++ q) = .error (.noSuchCharacter n) := by
  have hpoint : ∀ (width : Nat) (cs : List Char),
      codePointEscape line width cs = .error (.noSuchCharacter n) →
        codePointEscape line' width (cs ++ q) = .error (.noSuchCharacter n) := by
    intro width cs h
    unfold codePointEscape at h ⊢
    dsimp only at h ⊢
    by_cases hdigits : (cs.take width).length = width ∧ (cs.take width).all isHexDigit
    · rw [if_pos hdigits] at h
      have hwidth : width ≤ cs.length := by
        have := hdigits.1
        rw [List.length_take] at this
        omega
      rw [List.take_append_of_le_length hwidth, if_pos hdigits]
      exact h
    · rw [if_neg hdigits] at h
      cases h
  cases p with
  | nil => cases h
  | cons c cs =>
    rw [List.cons_append, escape] at *
    split_ifs at h ⊢
    all_goals first
      | cases h
      | exact hpoint _ _ h

theorem exists_escape_of_stringStep {opened : Nat} {frames : List Frame} {close : QuoteStep}
    (h : stringStep opened line frames close c p = .error (.noSuchCharacter n)) :
    c = '\\' ∧ escape line p = .error (.noSuchCharacter n) := by
  unfold stringStep at h
  split_ifs at h with hnewline hquote hslash
  · cases h
  · refine ⟨hslash, ?_⟩
    cases he : escape line p with
    | ok e =>
      rw [he] at h
      cases h
    | error e =>
      rw [he] at h
      cases h
      rfl

/-- A step that stops at a code point is an escape directly inside of a string. -/
theorem exists_escape_of_quoteStep {opened : Nat} {frames : List Frame}
    (h : quoteStep opened line frames c p = .error (.noSuchCharacter n)) :
    c = '\\' ∧ escape line p = .error (.noSuchCharacter n) ∧
      ∀ inner braces outer, frames ≠ .template inner braces :: outer := by
  unfold quoteStep at h
  split at h
  · exact ⟨(exists_escape_of_stringStep h).1, (exists_escape_of_stringStep h).2, nofun⟩
  · exact ⟨(exists_escape_of_stringStep h).1, (exists_escape_of_stringStep h).2, nofun⟩
  · cases h

theorem quoteStep_beginning {opened opened' : Nat} {frames frames' : List Frame}
    (hframes : List.Forall₂ Frame.Alike frames frames')
    (h : quoteStep opened line frames c p = .error (.noSuchCharacter n)) :
    quoteStep opened' line' frames' c (p ++ q) = .error (.noSuchCharacter n) := by
  obtain ⟨rfl, hescape, htemplate⟩ := exists_escape_of_quoteStep h
  have hstring : ∀ opened frames close,
      stringStep opened line' frames close '\\' (p ++ q) = .error (.noSuchCharacter n) := by
    intro opened frames close
    unfold stringStep
    rw [escape_beginning hescape]
    rfl
  cases hframes with
  | nil => exact hstring _ _ _
  | cons hframe hframes =>
    cases hframe with
    | quote inner inner' => exact hstring _ _ _
    | template inner inner' braces => exact absurd rfl (htemplate _ _ _)

/-- The escape of the code point stands past the characters that are skipped. -/
theorem length_of_quotedFrom {opened : Nat} {frames : List Frame} {read : QuotedString}
    (h : quotedFrom opened line frames read skip p = .error (.noSuchCharacter n)) :
    skip + 2 ≤ p.length := by
  induction p generalizing line frames read skip with
  | nil =>
    rw [quotedFrom] at h
    unfold unterminated at h
    split at h <;> cases h
  | cons c p ih =>
    rw [List.length_cons]
    cases skip with
    | succ skip =>
      rw [quotedFrom] at h
      have := ih h
      omega
    | zero =>
      rw [quotedFrom] at h
      cases hstep : quoteStep opened line frames c p with
      | error e =>
        rw [hstep] at h
        cases h
        cases p with
        | nil => cases (exists_escape_of_quoteStep hstep).2.1
        | cons b p =>
          rw [List.length_cons]
          omega
      | ok step =>
        rw [hstep] at h
        cases step with
        | done => cases h
        | next frames' decoded skip =>
          have := ih h
          omega

theorem quotedFrom_beginning {opened opened' : Nat} {frames frames' : List Frame}
    (hframes : List.Forall₂ Frame.Alike frames frames') {read : QuotedString}
    (h : quotedFrom opened line frames read skip p = .error (.noSuchCharacter n)) :
    quotedFrom opened' line' frames' read skip (p ++ q) = .error (.noSuchCharacter n) := by
  have hlength := length_of_quotedFrom h
  induction p generalizing line line' frames frames' read skip with
  | nil => exact absurd hlength (by simp)
  | cons c p ih =>
    have hempty : frames.isEmpty = frames'.isEmpty := by cases hframes <;> rfl
    rw [List.cons_append]
    cases skip with
    | succ skip =>
      rw [quotedFrom] at h ⊢
      rw [← hempty]
      exact ih hframes h (length_of_quotedFrom h)
    | zero =>
      rw [quotedFrom] at h ⊢
      cases hstep : quoteStep opened line frames c p with
      | error e =>
        rw [hstep] at h
        cases h
        rw [quoteStep_beginning hframes hstep]
      | ok step =>
        rw [hstep] at h
        cases step with
        | done => cases h
        | next fs decoded skip =>
          -- The step does not look past the escape that stops the reading.
          have hrest := length_of_quotedFrom h
          obtain ⟨u, w, rfl, hu, hw⟩ : ∃ u w, p = u ++ w ∧ skip < u.length ∧ w ≠ [] :=
            ⟨p.take (skip + 1), p.drop (skip + 1), (List.take_append_drop ..).symm,
              by rw [List.length_take]; omega, by simp; omega⟩
          obtain ⟨b, w, rfl⟩ := List.exists_cons_of_ne_nil hw
          obtain ⟨step', hstep', halike⟩ : ∃ step', quoteStep opened' line' frames' c
              (u ++ (b :: w ++ q)) = .ok step' ∧ (QuoteStep.next fs decoded skip).Alike step' :=
            quoteStep_append hframes (.head b w (w ++ q)) hstep hu
          rw [List.append_assoc, hstep']
          cases halike with
          | next hframes' =>
            dsimp only at h ⊢
            rw [← hempty, ← List.append_assoc]
            exact ih hframes' h hrest

theorem quotedString_beginning (h : quotedString line p = .error (.noSuchCharacter n)) :
    quotedString line' (p ++ q) = .error (.noSuchCharacter n) :=
  quotedFrom_beginning .nil h

/-! ## Tokens -/

/-- Only a quoted string can name a code point of no character. -/
theorem exists_string_of_lexeme (h : lexeme line c p = .error (.noSuchCharacter n)) :
    c = '"' ∧ quotedString line p = .error (.noSuchCharacter n) := by
  obtain hstring | ⟨-, -, hcomment⟩ | ⟨o, -, hread⟩ := lexeme_error line p h
  · exact hstring
  · cases hcomment
  · unfold heredoc at hread
    dsimp only at hread
    split at hread <;> cases hread

theorem lexeme_beginning (h : lexeme line c p = .error (.noSuchCharacter n)) :
    lexeme line' c (p ++ q) = .error (.noSuchCharacter n) := by
  obtain ⟨rfl, hstring⟩ := exists_string_of_lexeme h
  rw [lexeme_at_quote, quotedString_beginning hstring]
  rfl

/-- The string stands past the characters that are skipped. -/
theorem exists_quote_of_tokensFrom {place : Nat}
    (h : tokensFrom place line skip p = .error (.noSuchCharacter n)) :
    ∃ u v, p = u ++ '"' :: v ∧ skip ≤ u.length := by
  induction p generalizing place line skip with
  | nil => cases skip <;> cases h
  | cons c p ih =>
    have hlater : ∀ {place line skip}, tokensFrom place line skip p = .error (.noSuchCharacter n) →
        ∃ u v, c :: p = u ++ '"' :: v ∧ skip + 1 ≤ u.length := by
      intro place line skip h
      obtain ⟨u, v, rfl, hu⟩ := ih h
      exact ⟨c :: u, v, rfl, by rw [List.length_cons]; omega⟩
    cases skip with
    | succ skip =>
      rw [tokensFrom] at h
      exact hlater h
    | zero =>
      rw [tokensFrom] at h
      split at h
      · obtain ⟨u, v, heq, -⟩ := hlater h
        exact ⟨u, v, heq, Nat.zero_le _⟩
      · cases hlexeme : lexeme line c p with
        | error e =>
          rw [hlexeme] at h
          cases h
          obtain ⟨rfl, -⟩ := exists_string_of_lexeme hlexeme
          exact ⟨[], p, rfl, Nat.le_refl 0⟩
        | ok k =>
          rw [hlexeme] at h
          dsimp only at h
          split at h
          · next hrest =>
            cases h
            obtain ⟨u, v, heq, -⟩ := hlater hrest
            exact ⟨u, v, heq, Nat.zero_le _⟩
          · cases h

/-- A code point of no character that stops the reading of the beginning of a text stops the reading
of the text. -/
theorem tokensFrom_beginning {place place' : Nat}
    (h : tokensFrom place line skip p = .error (.noSuchCharacter n)) :
    tokensFrom place' line' skip (p ++ q) = .error (.noSuchCharacter n) := by
  induction p generalizing place place' line line' skip with
  | nil => cases skip <;> cases h
  | cons c p ih =>
    rw [List.cons_append]
    cases skip with
    | succ skip =>
      rw [tokensFrom] at h ⊢
      exact ih h
    | zero =>
      rw [tokensFrom] at h ⊢
      by_cases hgap : isGap c = true
      · rw [if_pos hgap] at h ⊢
        exact ih h
      rw [if_neg hgap] at h ⊢
      cases hlexeme : lexeme line c p with
      | error e =>
        rw [hlexeme] at h
        cases h
        rw [lexeme_beginning hlexeme]
      | ok k =>
        obtain ⟨kind, m⟩ := k
        rw [hlexeme] at h
        dsimp only at h
        split at h
        · next hrest =>
          cases h
          -- The token ends before the quote of the string, past which it does not look.
          obtain ⟨u, v, rfl, hu⟩ := exists_quote_of_tokensFrom hrest
          have hlexeme' : lexeme line' c (u ++ '"' :: v ++ q) = .ok (kind, m) := by
            rw [List.append_assoc, List.cons_append]
            exact lexeme_line (lexeme_barrier barrier_quote hlexeme hu)
          rw [hlexeme']
          dsimp only
          rw [ih hrest]
        · cases h

/-! ## Blank characters -/

theorem isDecimalDigit_of_isBlank (h : Text.isBlank c = true) : Text.isDecimalDigit c = false := by
  have hapart : (Text.blankRanges.all fun r => Text.digitZeros.all fun z =>
      decide (r.2 < z ∨ z + 9 < r.1)) = true := by decide +kernel
  rw [Text.isBlank, List.any_eq_true] at h
  obtain ⟨r, hr, hc⟩ := h
  have hfind : Text.digitZeros.find? (fun z => z ≤ c.toNat && c.toNat ≤ z + 9) = none := by
    refine List.find?_eq_none.2 fun z hz => ?_
    have := of_decide_eq_true (List.all_eq_true.1 (List.all_eq_true.1 hapart r hr) z hz)
    simp only [Bool.and_eq_true, decide_eq_true_eq] at hc ⊢
    omega
  rw [Text.isDecimalDigit, Text.digitValue?, hfind]
  rfl

theorem isNameStart_of_isBlank (h : Text.isBlank c = true) : isNameStart c = false := by
  rw [Bool.eq_false_iff]
  intro hstart
  rw [isBlank_of_isNameStart hstart] at h
  cases h

theorem isNameChar_of_isBlank (h : Text.isBlank c = true) : isNameChar c = false := by
  have hapart : (Text.blankRanges.all fun r => decide (57 < r.1 ∨ r.2 < 45)) = true := by
    decide +kernel
  have hstart := isNameStart_of_isBlank h
  rw [Text.isBlank, List.any_eq_true] at h
  obtain ⟨r, hr, hc⟩ := h
  have := of_decide_eq_true (List.all_eq_true.1 hapart r hr)
  simp only [Bool.and_eq_true, decide_eq_true_eq] at hc
  rw [Bool.eq_false_iff]
  intro hname
  simp only [isNameChar, hstart, Bool.false_or, Bool.or_eq_true, Bool.and_eq_true,
    decide_eq_true_eq, beq_iff_eq, Char.le_def, UInt32.le_iff_toNat_le] at hname
  rcases hname with ⟨hlow, hhigh⟩ | rfl
  · change 48 ≤ c.toNat at hlow
    change c.toNat ≤ 57 at hhigh
    omega
  · have hminus : '-'.toNat = 45 := rfl
    omega

/-- A blank character that does not end the line is an operator where it is a token at all. -/
theorem lexeme_blank (h : Text.isBlank c = true) (hnewline : c ≠ '\n') (line : Nat)
    (rest : List Char) : lexeme line c rest = .ok (.operator, 0) := by
  have hne : ∀ d, Text.isBlank d = false → c ≠ d := by
    rintro d hd rfl
    rw [h] at hd
    cases hd
  have hspecial : c ∉ ['\n', '#', '/', '"', '<', '='] := by
    simp [hnewline, hne '#' (by decide), hne '/' (by decide), hne '"' (by decide),
      hne '<' (by decide), hne '=' (by decide)]
  have hmark : punctuation? c = none := by
    simp [punctuation?, hne '\x7b' (by decide), hne '\x7d' (by decide), hne '[' (by decide),
      hne ']' (by decide), hne '(' (by decide), hne ')' (by decide), hne ':' (by decide),
      hne ',' (by decide)]
  rw [lexeme_at_mark line rest hspecial (isDecimalDigit_of_isBlank h) (isNameStart_of_isBlank h),
    hmark, Option.getD_none]

/-- A blank character is a token by itself where it is one at all. -/
theorem lexeme_of_isBlank (h : Text.isBlank c = true) (line : Nat) (rest : List Char) :
    ∃ kind, lexeme line c rest = .ok (kind, 0) := by
  by_cases hnewline : c = '\n'
  · exact ⟨.newline, by rw [hnewline]; rfl⟩
  · exact ⟨.operator, lexeme_blank h hnewline line rest⟩

/-- Blank characters before a text neither help nor hinder its reading. -/
theorem tokensFrom_blanks {place place' : Nat} (hblank : Text.allBlank p = true) :
    tokensFrom place line 0 (p ++ q) = .error (.noSuchCharacter n) ↔
      tokensFrom place' line' 0 q = .error (.noSuchCharacter n) := by
  induction p generalizing place line with
  | nil =>
    have hplace : ∀ {place place' line line'},
        tokensFrom place line 0 q = .error (.noSuchCharacter n) →
          tokensFrom place' line' 0 q = .error (.noSuchCharacter n) := by
      intro place place' line line' h
      simpa using tokensFrom_beginning (q := []) h
    exact ⟨hplace, hplace⟩
  | cons c p ih =>
    rw [Text.allBlank, List.all_cons, Bool.and_eq_true] at hblank
    rw [List.cons_append, tokensFrom]
    split
    · exact ih hblank.2
    · obtain ⟨kind, hlexeme⟩ := lexeme_of_isBlank hblank.1 line (p ++ q)
      have hrest : tokensFrom (place + 1) (lineAfter line c) 0 (p ++ q) = .error (.noSuchCharacter n) ↔
          tokensFrom place' line' 0 q = .error (.noSuchCharacter n) := ih hblank.2
      rw [hlexeme, ← hrest]
      dsimp only
      cases tokensFrom (place + 1) (lineAfter line c) 0 (p ++ q) with
      | ok ts => simp
      | error e => rfl

end InstanceInventory.Literal
