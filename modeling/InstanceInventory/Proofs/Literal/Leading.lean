import InstanceInventory.Literal.Lexer
import Mathlib.Tactic.SplitIfs

/-! # Tokens by their first character

* `Leading`: the characters that the lexer tells apart where a token begins.
* `lexeme_at_slash`, `lexeme_at_angle` and the like: what the lexer does at each of them. Facts on
  tokens are proved by cases on `leading c` with these equations, so that the order in which the
  lexer asks is opened here alone.
-/

namespace InstanceInventory.Literal
set_option autoImplicit false
variable {c : Char} (line : Nat) (rest : List Char)

/-- The characters that the lexer tells apart where a token begins. -/
inductive Leading : Char → Prop
  | newline : Leading '\n'
  | hash : Leading '#'
  | slash : Leading '/'
  | quote : Leading '"'
  | angle : Leading '<'
  | equals : Leading '='
  | digit {c : Char} (digit : Text.isDecimalDigit c = true) : Leading c
  | name {c : Char} (digit : Text.isDecimalDigit c = false) (name : isNameStart c = true) : Leading c
  | mark {c : Char} (special : c ∉ ['\n', '#', '/', '"', '<', '='])
    (digit : Text.isDecimalDigit c = false) (name : isNameStart c = false) : Leading c

theorem leading (c : Char) : Leading c := by
  by_cases hspecial : c ∈ ['\n', '#', '/', '"', '<', '=']
  · simp only [List.mem_cons, List.not_mem_nil, or_false] at hspecial
    rcases hspecial with rfl | rfl | rfl | rfl | rfl | rfl
    · exact .newline
    · exact .hash
    · exact .slash
    · exact .quote
    · exact .angle
    · exact .equals
  · cases hdigit : Text.isDecimalDigit c with
    | true => exact .digit hdigit
    | false =>
      cases hname : isNameStart c with
      | true => exact .name hdigit hname
      | false => exact .mark hspecial hdigit hname

theorem heredocOpening?_of_ne (hc : c ≠ '<') : heredocOpening? (c :: rest) = none := by
  unfold heredocOpening?
  split
  · next h => exact absurd (List.cons.inj h).1 hc
  · rfl

/-! ## Special characters -/

theorem lexeme_newline : lexeme line '\n' rest = .ok (.newline, 0) := rfl

theorem lexeme_at_hash :
    lexeme line '#' rest = .ok (.comment, (rest.takeWhile (· != '\n')).length) := rfl

theorem lexeme_at_slash : lexeme line '/' rest =
    if rest.take 1 = ['/'] then .ok (.comment, (rest.takeWhile (· != '\n')).length)
    else if rest.take 1 = ['*'] then
      match blockCommentLength? (rest.drop 1) with
      | some n => .ok (.comment, n + 1)
      | none => .error (.atLine .unterminatedComment line)
    else .ok (.operator, 0) := by
  unfold lexeme
  rw [if_neg (by decide)]
  by_cases hline : rest.take 1 = ['/']
  · rw [if_pos (.inr ⟨rfl, hline⟩), if_pos hline]
  rw [if_neg (by simp [hline]), if_neg hline]
  by_cases hblock : rest.take 1 = ['*']
  · exact (if_pos ⟨rfl, hblock⟩).trans (if_pos hblock).symm
  · rw [if_neg (by simp [hblock]), if_neg hblock]
    rfl

theorem lexeme_at_quote : lexeme line '"' rest =
    (quotedString line rest).map fun q =>
      (.string (String.ofList q.value) q.template, q.length) := rfl

/-- A string token is a quoted string that is read to its end. -/
theorem lexeme_at_quote_iff {k : Token.Kind} {n : Nat} : lexeme line '"' rest = .ok (k, n) ↔
    ∃ q, quotedString line rest = .ok q ∧
      .string (String.ofList q.value) q.template = k ∧ q.length = n := by
  rw [lexeme_at_quote]
  cases quotedString line rest <;> simp [Except.map]

theorem lexeme_at_angle : lexeme line '<' rest =
    match heredocOpening? ('<' :: rest) with
    | some o => (heredoc line ('<' :: rest) o).map fun h => (.heredoc (String.ofList h.1), h.2 - 1)
    | none => .ok (.operator, 0) := rfl

/-- Two angle marks begin a heredoc that is read to its end, or the first is an operator. -/
theorem lexeme_at_angle_iff {k : Token.Kind} {n : Nat} : lexeme line '<' rest = .ok (k, n) ↔
    (∃ o b, heredocOpening? ('<' :: rest) = some o ∧ heredoc line ('<' :: rest) o = .ok b ∧
      .heredoc (String.ofList b.1) = k ∧ b.2 - 1 = n) ∨
    (heredocOpening? ('<' :: rest) = none ∧ .operator = k ∧ 0 = n) := by
  rw [lexeme_at_angle]
  cases heredocOpening? ('<' :: rest) with
  | none => simp
  | some o => cases hread : heredoc line ('<' :: rest) o <;> simp [hread, Except.map, -Prod.exists]

theorem lexeme_at_equals : lexeme line '=' rest =
    if rest.take 1 = ['='] ∨ rest.take 1 = ['>'] then .ok (.operator, 1) else .ok (.equals, 0) := rfl

/-! ## Other characters -/

theorem lexeme_of_ordinary (hc : c ∉ ['\n', '#', '/', '"', '<', '=']) : lexeme line c rest =
    if Text.isDecimalDigit c then
      .ok (.number (numberAt (c :: rest)).1, (numberAt (c :: rest)).2 - 1)
    else if isNameStart c then .ok (.ident, (rest.takeWhile isNameChar).length)
    else .ok ((punctuation? c).getD .operator, 0) := by
  simp only [List.mem_cons, List.not_mem_nil, or_false, not_or] at hc
  obtain ⟨hnewline, hhash, hslash, hquote, hangle, hequals⟩ := hc
  simp [lexeme, hnewline, hhash, hslash, hquote, heredocOpening?_of_ne rest hangle, hequals]

theorem lexeme_at_digit (hdigit : Text.isDecimalDigit c = true) :
    lexeme line c rest = .ok (.number (numberAt (c :: rest)).1, (numberAt (c :: rest)).2 - 1) := by
  have hspecial : (['\n', '#', '/', '"', '<', '='].all fun d => !Text.isDecimalDigit d) = true := rfl
  have hc : c ∉ ['\n', '#', '/', '"', '<', '='] := fun hc => by
    simpa [hdigit] using List.all_eq_true.1 hspecial c hc
  rw [lexeme_of_ordinary line rest hc, if_pos hdigit]

theorem lexeme_at_name (hdigit : Text.isDecimalDigit c = false) (hname : isNameStart c = true) :
    lexeme line c rest = .ok (.ident, (rest.takeWhile isNameChar).length) := by
  have hspecial : (['\n', '#', '/', '"', '<', '='].all fun d => !isNameStart d) = true := rfl
  have hc : c ∉ ['\n', '#', '/', '"', '<', '='] := fun hc => by
    simpa [hname] using List.all_eq_true.1 hspecial c hc
  rw [lexeme_of_ordinary line rest hc, hdigit, if_neg Bool.false_ne_true, if_pos hname]

theorem lexeme_at_mark (hspecial : c ∉ ['\n', '#', '/', '"', '<', '='])
    (hdigit : Text.isDecimalDigit c = false) (hname : isNameStart c = false) :
    lexeme line c rest = .ok ((punctuation? c).getD .operator, 0) := by
  rw [lexeme_of_ordinary line rest hspecial, hdigit, hname, if_neg Bool.false_ne_true,
    if_neg Bool.false_ne_true]

/-! ## What cannot be read -/

/-- Only a string, a block comment or a heredoc can be left unread. -/
theorem lexeme_error {f : Fault} (h : lexeme line c rest = .error f) :
    (c = '"' ∧ quotedString line rest = .error f) ∨
      (c = '/' ∧ rest.take 1 = ['*'] ∧ f = .atLine .unterminatedComment line) ∨
        ∃ o, heredocOpening? (c :: rest) = some o ∧ heredoc line (c :: rest) o = .error f := by
  cases leading c with
  | quote =>
    rw [lexeme_at_quote] at h
    cases hread : quotedString line rest <;> rw [hread] at h <;> cases h
    exact .inl ⟨rfl, rfl⟩
  | slash =>
    rw [lexeme_at_slash] at h
    split_ifs at h with hline hblock
    split at h <;> cases h
    exact .inr (.inl ⟨rfl, hblock, rfl⟩)
  | angle =>
    rw [lexeme_at_angle] at h
    cases ho : heredocOpening? ('<' :: rest) with
    | none =>
      rw [ho] at h
      cases h
    | some o =>
      rw [ho] at h
      cases hread : heredoc line ('<' :: rest) o <;> simp [hread, Except.map] at h
      exact .inr (.inr ⟨o, rfl, h ▸ hread⟩)
  | newline => cases h
  | hash => cases h
  | equals =>
    rw [lexeme_at_equals] at h
    split_ifs at h
  | digit hdigit =>
    rw [lexeme_at_digit line rest hdigit] at h
    cases h
  | name hdigit hname =>
    rw [lexeme_at_name line rest hdigit hname] at h
    cases h
  | mark hspecial hdigit hname =>
    rw [lexeme_at_mark line rest hspecial hdigit hname] at h
    cases h

end InstanceInventory.Literal
