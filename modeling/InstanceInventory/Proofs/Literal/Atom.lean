import InstanceInventory.Literal.Printer
import InstanceInventory.Proofs.Literal.Leading
import InstanceInventory.Proofs.Literal.Piece
import Mathlib.Tactic.SplitIfs

/-! # Atoms read back

What the lexer makes of the parts that have no parts: quoted strings, names, numbers and marks.

* `lexeme_stringChars`: a quoted string is one token without a template, whose value is the text.
* `lexeme_name`, `lexeme_digits`: a name and a number, before a character that delimits them.
* `Delimited`: the characters after a name or a number do not belong to it.
-/

namespace InstanceInventory.Literal
set_option autoImplicit false

/-! ## Quoted strings -/

theorem take_one_stringChar (c : Char) (b : Bool) (after : List Char) :
    (stringChar c b ++ after).take 1 = ['\x7b'] ↔ c = '\x7b' := by
  unfold stringChar
  split_ifs with h <;> simp only [List.cons_append, List.take_succ_cons, List.take_zero,
    List.cons.injEq, and_true, Char.reduceEq, false_iff]
  all_goals rintro rfl
  all_goals simp_all +decide

theorem take_one_stringBody (cs after : List Char) :
    (stringBody cs ++ '"' :: after).take 1 = ['\x7b'] ↔ cs.take 1 = ['\x7b'] := by
  cases cs with
  | nil => simp [stringBody]
  | cons c cs =>
    rw [stringBody, List.append_assoc, take_one_stringChar]
    simp

/-- A mark of a template never stands before an opening brace, except after its like. -/
theorem take_two_stringBody {c : Char} (hc : c = '$' ∨ c = '%') (cs after : List Char) :
    (stringBody cs ++ '"' :: after).take 2 ≠ [c, '\x7b'] := by
  intro h
  cases cs with
  | nil => rcases hc with rfl | rfl <;> simp [stringBody] at h
  | cons d ds =>
    have hd : d = c := by
      simp only [stringBody] at h
      unfold stringChar at h
      rcases hc with rfl | rfl <;> split_ifs at h <;> simp_all
    subst hd
    have hbrace := take_one_stringBody ds after
    simp only [stringBody] at h
    unfold stringChar at h
    by_cases hb : ds.take 1 = ['\x7b'] <;> rcases hc with rfl | rfl <;> simp_all

theorem hexDigits_control {n : Nat} (hn : n < 0x20) :
    (Text.hexDigits 4 n).length = 4 ∧ (Text.hexDigits 4 n).all isHexDigit = true ∧
      hexNumber (Text.hexDigits 4 n) = n := by
  revert n
  decide

/-- A written string holds no control characters. -/
theorem visible_stringChar (c : Char) (b : Bool) : ∀ d ∈ stringChar c b, 0x20 ≤ d.toNat := by
  have hall : ∀ n < 0x20, (Text.hexDigits 4 n).all (0x20 ≤ ·.toNat) = true := by decide
  have hhex : ∀ n < 0x20, ∀ d ∈ Text.hexDigits 4 n, 0x20 ≤ d.toNat :=
    fun n hn d hd => of_decide_eq_true (List.all_eq_true.1 (hall n hn) d hd)
  intro d hd
  unfold stringChar at hd
  split_ifs at hd with hescaped hnewline htab hreturn hcontrol hmark
  · rcases hescaped with rfl | rfl <;> simp at hd <;> rcases hd with rfl | rfl <;> decide
  · simp at hd
    rcases hd with rfl | rfl <;> decide
  · simp at hd
    rcases hd with rfl | rfl <;> decide
  · simp at hd
    rcases hd with rfl | rfl <;> decide
  · simp only [List.mem_cons] at hd
    rcases hd with rfl | rfl | hd
    · decide
    · decide
    · exact hhex c.toNat hcontrol d hd
  · rcases hmark.1 with rfl | rfl <;> simp at hd <;> rw [hd] <;> decide
  · rw [List.mem_singleton.1 hd]
    omega

theorem visible_stringBody (cs : List Char) : ∀ d ∈ stringBody cs, 0x20 ≤ d.toNat := by
  induction cs with
  | nil => exact fun _ hd => nomatch hd
  | cons c cs ih =>
    intro d hd
    rw [stringBody] at hd
    rcases List.mem_append.1 hd with hd | hd
    · exact visible_stringChar c _ d hd
    · exact ih d hd

theorem visible_stringChars (s : String) : ∀ d ∈ stringChars s, 0x20 ≤ d.toNat := by
  intro d hd
  rw [stringChars, List.mem_cons, List.mem_append, List.mem_singleton] at hd
  rcases hd with rfl | hd | rfl
  · decide
  · exact visible_stringBody _ d hd
  · decide

theorem escape_control (line : Nat) (c : Char) (hc : c.toNat < 0x20) (after : List Char) :
    escape line ('u' :: (Text.hexDigits 4 c.toNat ++ after)) = .ok (c, 5) := by
  obtain ⟨hlength, hdigits, hnumber⟩ := hexDigits_control hc
  have hvalid : c.toNat.isValidChar := c.valid
  simp [escape, codePointEscape, hlength, hdigits, hnumber, charOfCodePoint, hvalid]
  omega

theorem quotedFrom_skip (opened line : Nat) (acc : List Char) (n : Nat) (cs after : List Char) :
    quotedFrom opened line [] ⟨acc, false, n⟩ cs.length (cs ++ after) =
      quotedFrom opened (lineAfterAll line cs) [] ⟨acc, false, n + cs.length⟩ 0 after := by
  induction cs generalizing line n with
  | nil => rfl
  | cons c cs ih =>
    have e : n + 1 + cs.length = n + (cs.length + 1) := by omega
    rw [List.cons_append, List.length_cons, quotedFrom, lineAfterAll_cons, ← e, ← ih]
    rfl

/-- A step that decodes a character and takes further ones along. -/
theorem quotedFrom_decode {opened line : Nat} (c d : Char) (cs : List Char) {after : List Char}
    (hstep : stringStep opened line [] .done c (cs ++ after) = .ok (.next [] (some d) cs.length))
    (hc : c ≠ '\n') (hcs : '\n' ∉ cs) (acc : List Char) (n : Nat) :
    quotedFrom opened line [] ⟨acc, false, n⟩ 0 (c :: (cs ++ after)) =
      quotedFrom opened line [] ⟨d :: acc, false, n + (c :: cs).length⟩ 0 after := by
  have hline : lineAfter line c = line := by simp [lineAfter, hc]
  have e : n + 1 + cs.length = n + (c :: cs).length := by
    rw [List.length_cons]
    omega
  rw [quotedFrom]
  simp only [quoteStep, hstep]
  rw [hline, ← e, ← lineAfterAll_eq_self hcs line, ← quotedFrom_skip, lineAfterAll_eq_self hcs]
  rfl

/-- What a character reads as where it is written inside quotes. -/
theorem quotedFrom_stringChar (opened line : Nat) (acc : List Char) (n : Nat) (c : Char)
    {b : Bool} {after : List Char} (hb : b = true ↔ after.take 1 = ['\x7b'])
    (hmark : c = '$' ∨ c = '%' → after.take 2 ≠ [c, '\x7b']) :
    quotedFrom opened line [] ⟨acc, false, n⟩ 0 (stringChar c b ++ after) =
      quotedFrom opened line [] ⟨c :: acc, false, n + (stringChar c b).length⟩ 0 after := by
  unfold stringChar
  split_ifs with hescaped hnewline htab hreturn hcontrol htemplate
  · refine quotedFrom_decode '\\' c [c] ?_ (by decide) ?_ acc n
    · rcases hescaped with rfl | rfl <;> simp [stringStep, escape, Except.map]
    · rcases hescaped with rfl | rfl <;> decide
  · subst hnewline
    exact quotedFrom_decode '\\' '\n' ['n'] rfl (by decide) (by decide) acc n
  · subst htab
    exact quotedFrom_decode '\\' '\t' ['t'] rfl (by decide) (by decide) acc n
  · subst hreturn
    exact quotedFrom_decode '\\' '\r' ['r'] rfl (by decide) (by decide) acc n
  · obtain ⟨hlength, hdigits, -⟩ := hexDigits_control hcontrol
    refine quotedFrom_decode '\\' c ('u' :: Text.hexDigits 4 c.toNat) ?_ (by decide) ?_ acc n
    · rw [List.length_cons, hlength, List.cons_append]
      simp [stringStep, escape_control line c hcontrol, Except.map]
    · intro hmem
      rcases List.mem_cons.1 hmem with h | h
      · exact absurd h (by decide)
      · exact absurd (List.all_eq_true.1 hdigits _ h) (by decide)
  · obtain ⟨hc, hbrace⟩ := htemplate
    have hafter := hb.1 hbrace
    refine quotedFrom_decode c c [c] ?_ hnewline ?_ acc n
    · rcases hc with rfl | rfl <;> simp [stringStep, hafter]
    · rw [List.mem_singleton]
      exact fun h => hnewline h.symm
  · refine quotedFrom_decode c c [] ?_ hnewline (List.not_mem_nil) acc n
    obtain ⟨hslash, hquote⟩ := not_or.1 hescaped
    by_cases hc : c = '$' ∨ c = '%'
    · have hafter : ¬ after.take 1 = ['\x7b'] := fun h => htemplate ⟨hc, hb.2 h⟩
      simp [stringStep, hnewline, hquote, hslash, hc, hafter, hmark hc]
    · simp [stringStep, hnewline, hquote, hslash, hc]

/-- What a text reads as where it is written before the quote that closes it. -/
theorem quotedFrom_stringBody (opened line : Nat) (acc : List Char) (n : Nat) (s after : List Char) :
    quotedFrom opened line [] ⟨acc, false, n⟩ 0 (stringBody s ++ '"' :: after) =
      .ok ⟨acc.reverse ++ s, false, n + (stringBody s).length + 1⟩ := by
  induction s generalizing acc n with
  | nil => simp [stringBody, quotedFrom, quoteStep, stringStep]
  | cons c s ih =>
    have hb : (s.take 1 == ['\x7b']) = true ↔
        (stringBody s ++ '"' :: after).take 1 = ['\x7b'] := by
      rw [take_one_stringBody, beq_iff_eq]
    have hstep := quotedFrom_stringChar opened line acc n c hb
      fun hc => take_two_stringBody hc s after
    rw [stringBody, List.append_assoc, hstep, ih]
    simp
    omega

/-- A quoted string is one token without a template, whose value is the text. -/
theorem lexeme_stringChars (line : Nat) (s : String) (after : List Char) :
    lexeme line '"' ((stringBody s.toList ++ ['"']) ++ after) =
      .ok (.string s false, (stringBody s.toList ++ ['"']).length) := by
  have hread : quotedString line (stringBody s.toList ++ '"' :: after) =
      .ok ⟨s.toList, false, (stringBody s.toList).length + 1⟩ := by
    rw [quotedString, quotedFrom_stringBody]
    simp
  rw [List.append_assoc, List.singleton_append, lexeme_at_quote, hread]
  simp [Except.map]

/-! ## Marks -/

/-- A character that begins nothing longer is a mark. -/
theorem lexeme_mark {c : Char} {k : Token.Kind} (hk : punctuation? c = some k) (line : Nat)
    (after : List Char) : lexeme line c after = .ok (k, 0) := by
  unfold punctuation? at hk
  split_ifs at hk with h1 h2 h3 h4 h5 h6 h7 h8 <;> cases hk <;> subst c <;> rfl

/-- An equals sign is a token by itself before anything but a second one or an arrow's head. -/
theorem lexeme_sign {after : List Char} (h : ∀ d ∈ after.head?, d ≠ '=' ∧ d ≠ '>') (line : Nat) :
    lexeme line '=' after = .ok (.equals, 0) := by
  cases after with
  | nil => rfl
  | cons d after =>
    obtain ⟨hequals, harrow⟩ := h d rfl
    rw [lexeme_at_equals, if_neg (by simp [hequals, harrow])]

theorem lexeme_equals (line : Nat) (after : List Char) :
    lexeme line '=' (' ' :: after) = .ok (.equals, 0) := rfl

theorem lexeme_minus (line : Nat) (after : List Char) :
    lexeme line '-' after = .ok (.operator, 0) := rfl

/-! ## Names and numbers -/

/-- A character that ends a name or a number. -/
def isDelimiter (c : Char) : Bool :=
  c == ' ' || c == '\n' || c == ',' || c == ']'

/-- The characters after a name or a number do not belong to it. -/
def Delimited (after : List Char) : Prop :=
  ∀ c ∈ after.head?, isDelimiter c = true

theorem Delimited.nil : Delimited [] := by
  intro c hc
  cases hc

theorem Delimited.cons {c : Char} (hc : isDelimiter c = true) (after : List Char) :
    Delimited (c :: after) := by
  intro d hd
  cases hd
  exact hc

theorem takeWhile_delimited {p : Char → Bool} (hp : ∀ c, isDelimiter c = true → p c = false)
    {cs after : List Char} (hcs : ∀ c ∈ cs, p c = true) (h : Delimited after) :
    (cs ++ after).takeWhile p = cs := by
  rw [List.takeWhile_append_of_pos hcs]
  cases after with
  | nil => simp
  | cons c after =>
    have hc := hp c (h c rfl)
    simp [hc]

theorem eq_of_isDelimiter {c : Char} (h : isDelimiter c = true) :
    c = ' ' ∨ c = '\n' ∨ c = ',' ∨ c = ']' := by
  simpa [isDelimiter, or_assoc] using h

theorem digitValue?_of_isDigit {c : Char} (h : c.isDigit = true) :
    Text.digitValue? c = some (c.toNat - '0'.toNat) := by
  simp only [Char.isDigit, Bool.and_eq_true, decide_eq_true_eq, ge_iff_le,
    UInt32.le_iff_toNat_le] at h
  change 48 ≤ c.toNat ∧ c.toNat ≤ 57 at h
  have htest : (decide (48 ≤ c.toNat) && decide (c.toNat ≤ 48 + 9)) = true := by
    simp [h]
  have hfind : Text.digitZeros.find? (fun z => z ≤ c.toNat && c.toNat ≤ z + 9) = some 48 :=
    List.find?_cons_of_pos htest
  rw [Text.digitValue?, hfind]
  rfl

theorem decimalFrom_eq_ofDigitChars {cs : List Char} (h : ∀ c ∈ cs, c.isDigit = true) (n : Nat) :
    Text.decimalFrom n cs = Nat.ofDigitChars 10 cs n := by
  induction cs generalizing n with
  | nil => simp [Text.decimalFrom]
  | cons c cs ih =>
    have hc := digitValue?_of_isDigit (h c (List.mem_cons_self ..))
    rw [Nat.ofDigitChars_cons, ← ih fun d hd => h d (List.mem_cons_of_mem c hd)]
    simp [Text.decimalFrom, hc]

theorem isDigit_of_mem_toDigits {n : Nat} : ∀ c ∈ Nat.toDigits 10 n, c.isDigit = true :=
  fun _ hc => Nat.isDigit_of_mem_toDigits (by decide) (by decide) hc

/-- The digits of a number are read as the number. -/
theorem numberAt_toDigits (n : Nat) {after : List Char} (h : Delimited after) :
    numberAt (Nat.toDigits 10 n ++ after) = (.int n, (Nat.toDigits 10 n).length) := by
  have hdigits : ∀ c ∈ Nat.toDigits 10 n, Text.isDecimalDigit c = true := by
    intro c hc
    rw [Text.isDecimalDigit, digitValue?_of_isDigit (isDigit_of_mem_toDigits c hc)]
    rfl
  have hend : ∀ c, isDelimiter c = true → Text.isDecimalDigit c = false := by
    intro c hc
    rcases eq_of_isDelimiter hc with rfl | rfl | rfl | rfl <;> decide
  have hwhole : digitChars (Nat.toDigits 10 n ++ after) = Nat.toDigits 10 n :=
    takeWhile_delimited hend hdigits h
  have hvalue : Text.decimal (Nat.toDigits 10 n) = n := by
    rw [Text.decimal, decimalFrom_eq_ofDigitChars isDigit_of_mem_toDigits]
    exact Nat.ofDigitChars_ten_toDigits
  have hfraction : fractionChars after = [] := by
    cases after with
    | nil => rfl
    | cons c after => rcases eq_of_isDelimiter (h c rfl) with rfl | rfl | rfl | rfl <;> rfl
  have hexponent : exponentPart? after = none := by
    cases after with
    | nil => rfl
    | cons c after => rcases eq_of_isDelimiter (h c rfl) with rfl | rfl | rfl | rfl <;> rfl
  simp [numberAt, hwhole, hvalue, hfraction, hexponent]

theorem lexeme_digits {c : Char} {cs : List Char} {n : Nat} (hn : Nat.toDigits 10 n = c :: cs)
    (line : Nat) {after : List Char} (h : Delimited after) :
    lexeme line c (cs ++ after) = .ok (.number (.int n), cs.length) := by
  have hc : c.isDigit = true := isDigit_of_mem_toDigits c (hn ▸ List.mem_cons_self ..)
  have hdecimal : Text.isDecimalDigit c = true := by
    rw [Text.isDecimalDigit, digitValue?_of_isDigit hc]
    rfl
  have hnumber := numberAt_toDigits n h
  rw [hn, List.cons_append] at hnumber
  rw [lexeme_at_digit line _ hdecimal, hnumber]
  rfl

theorem isNameStart_bounds {c : Char} (h : isNameStart c = true) :
    65 ≤ c.toNat ∧ c.toNat ≤ 122 := by
  simp [isNameStart, Char.le_def, UInt32.le_iff_toNat_le] at h
  rcases h with (h | h) | rfl
  · change 65 ≤ c.val.toNat ∧ c.val.toNat ≤ 90 at h
    exact ⟨h.1, Nat.le_trans h.2 (by decide)⟩
  · change 97 ≤ c.val.toNat ∧ c.val.toNat ≤ 122 at h
    exact ⟨Nat.le_trans (by decide) h.1, h.2⟩
  · decide

theorem isBlank_of_isNameStart {c : Char} (h : isNameStart c = true) : Text.isBlank c = false := by
  obtain ⟨hlow, hhigh⟩ := isNameStart_bounds h
  have hranges : ∀ r ∈ Text.blankRanges, r.2 < 65 ∨ 122 < r.1 := by decide
  refine List.any_eq_false.2 fun r hr => ?_
  have := hranges r hr
  simp
  omega

theorem isDecimalDigit_of_isNameStart {c : Char} (h : isNameStart c = true) :
    Text.isDecimalDigit c = false := by
  have hbounds := isNameStart_bounds h
  have hzeros : ∀ z ∈ Text.digitZeros, z + 9 < 65 ∨ 122 < z := by decide
  have hfind : Text.digitZeros.find? (fun z => z ≤ c.toNat && c.toNat ≤ z + 9) = none := by
    refine List.find?_eq_none.2 fun z hz => ?_
    have := hzeros z hz
    simp
    omega
  rw [Text.isDecimalDigit, Text.digitValue?, hfind]
  rfl

/-- A name is one token, if no character of a name follows it. -/
theorem lexeme_word {c : Char} {cs after : List Char} (hc : isNameStart c = true)
    (hcs : ∀ d ∈ cs, isNameChar d = true) (line : Nat)
    (h : ∀ d ∈ after.head?, isNameChar d = false) :
    lexeme line c (cs ++ after) = .ok (.ident, cs.length) := by
  have htake : (cs ++ after).takeWhile isNameChar = cs := by
    rw [List.takeWhile_append_of_pos hcs]
    cases after with
    | nil => simp
    | cons d after => simp [h d rfl]
  rw [lexeme_at_name line _ (isDecimalDigit_of_isNameStart hc) hc, htake]

theorem lexeme_name {c : Char} {cs : List Char} (hc : isNameStart c = true)
    (hcs : ∀ d ∈ cs, isNameChar d = true) (line : Nat) {after : List Char} (h : Delimited after) :
    lexeme line c (cs ++ after) = .ok (.ident, cs.length) := by
  refine lexeme_word hc hcs line fun d hd => ?_
  rcases eq_of_isDelimiter (h d hd) with rfl | rfl | rfl | rfl <;> decide

end InstanceInventory.Literal
