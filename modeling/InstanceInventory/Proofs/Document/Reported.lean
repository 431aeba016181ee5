import InstanceInventory.Document.Region
import InstanceInventory.Proofs.Literal.Excerpt
import InstanceInventory.Proofs.Literal.Soundness
import InstanceInventory.Proofs.Text.Lines
import InstanceInventory.Record.Attributes

/-! # What readers report

* `Escapes`: a text holds an escape of eight digits with a code point beyond the last character.
* `Reported`: every reader takes a text or refuses it with an error of its own.
* `reported_or_escapes`: such an escape is the one thing that stops a reader without a report. It
  stops all of them alike.
-/

namespace InstanceInventory.Document
set_option autoImplicit false
open Literal
variable {line skip n : Nat} {c : Char} {cs : List Char} {text : String}

/-! ## Escapes beyond the last character -/

/-- Characters hold an escape of eight digits that names a code point beyond the last character. -/
def Escapes (cs : List Char) (n : Nat) : Prop :=
  ∃ before digits after, cs = before ++ '\\' :: 'U' :: (digits ++ after) ∧ digits.length = 8 ∧
    digits.all isHexDigit = true ∧ hexNumber digits = n ∧ 0x10FFFF < n

theorem Escapes.cons (h : Escapes cs n) : Escapes (c :: cs) n := by
  obtain ⟨before, digits, after, rfl, hdigits⟩ := h
  exact ⟨c :: before, digits, after, rfl, hdigits⟩

theorem hexValue_lt (h : isHexDigit c = true) : hexValue c < 16 := by
  have hle : ∀ a b : Char, a ≤ b ↔ a.toNat ≤ b.toNat := fun a b => UInt32.le_iff_toNat_le
  have hpoints : '0'.toNat = 48 ∧ '9'.toNat = 57 ∧ 'A'.toNat = 65 ∧ 'F'.toNat = 70 ∧
      'a'.toNat = 97 ∧ 'f'.toNat = 102 := by decide
  simp only [isHexDigit, Bool.or_eq_true, Bool.and_eq_true, decide_eq_true_eq, hle] at h
  simp only [hexValue, hle]
  split_ifs <;> omega

/-- Digits write a number below the power of sixteen of their count. -/
theorem hexNumber_lt {digits : List Char} (h : digits.all isHexDigit = true) :
    hexNumber digits < Nat.pow 16 digits.length := by
  suffices hfold : ∀ m k, m < Nat.pow 16 k →
      digits.foldl (fun n c => 16 * n + hexValue c) m < Nat.pow 16 (k + digits.length) by
    simpa [hexNumber] using hfold 0 0 (by decide)
  induction digits with
  | nil => exact fun m k hm => hm
  | cons d digits ih =>
    intro m k hm
    rw [List.all_cons, Bool.and_eq_true] at h
    have hd := hexValue_lt h.1
    have hstep : 16 * m + hexValue d < Nat.pow 16 (k + 1) := by
      have hpow : Nat.pow 16 (k + 1) = Nat.pow 16 k * 16 := rfl
      omega
    have hrest := ih h.2 _ _ hstep
    rwa [Nat.add_assoc, Nat.add_comm 1, ← List.length_cons] at hrest

theorem escapes_of_escape (h : escape line cs = .error (.noSuchCharacter n)) :
    Escapes ('\\' :: cs) n := by
  have hpoint : ∀ {width : Nat} {cs : List Char},
      codePointEscape line width cs = .error (.noSuchCharacter n) →
        (cs.take width).length = width ∧ (cs.take width).all isHexDigit = true ∧
          hexNumber (cs.take width) = n ∧ 0x10FFFF < n := by
    intro width cs h
    unfold codePointEscape at h
    dsimp only at h
    split at h
    · next hdigits =>
      split at h
      · next hlarge =>
        cases h
        exact ⟨hdigits.1, hdigits.2, rfl, hlarge⟩
      · cases h
    · cases h
  cases cs with
  | nil => cases h
  | cons c cs =>
    rw [escape] at h
    split_ifs at h with _ _ _ _ _ hu hU
    · obtain ⟨hlength, hhex, hn, hlarge⟩ := hpoint h
      have hlt := hexNumber_lt hhex
      have hpow : Nat.pow 16 4 = 65536 := rfl
      rw [hn, hlength] at hlt
      omega
    · obtain ⟨hlength, hhex, hn, hlarge⟩ := hpoint h
      refine ⟨[], cs.take 8, cs.drop 8, ?_, hlength, hhex, hn, hlarge⟩
      rw [hU, List.take_append_drop, List.nil_append]
    · cases h

theorem escapes_of_quotedFrom {opened : Nat} {frames : List Frame} {read : QuotedString}
    (h : quotedFrom opened line frames read skip cs = .error (.noSuchCharacter n)) :
    Escapes cs n := by
  induction cs generalizing line frames read skip with
  | nil => exact absurd (length_of_quotedFrom h) (by simp)
  | cons c cs ih =>
    cases skip with
    | succ skip =>
      rw [quotedFrom] at h
      exact (ih h).cons
    | zero =>
      rw [quotedFrom] at h
      cases hstep : quoteStep opened line frames c cs with
      | error f =>
        rw [hstep] at h
        cases h
        obtain ⟨rfl, hescape, -⟩ := exists_escape_of_quoteStep hstep
        exact escapes_of_escape hescape
      | ok step =>
        rw [hstep] at h
        cases step with
        | done => cases h
        | next frames' decoded skip => exact (ih h).cons

theorem escapes_of_tokensFrom {place : Nat}
    (h : tokensFrom place line skip cs = .error (.noSuchCharacter n)) : Escapes cs n := by
  induction cs generalizing place line skip with
  | nil => cases skip <;> cases h
  | cons c cs ih =>
    cases skip with
    | succ skip =>
      rw [tokensFrom] at h
      exact (ih h).cons
    | zero =>
      rw [tokensFrom] at h
      split at h
      · exact (ih h).cons
      · cases hlexeme : lexeme line c cs with
        | error f =>
          rw [hlexeme] at h
          cases h
          exact (escapes_of_quotedFrom (exists_string_of_lexeme hlexeme).2).cons
        | ok k =>
          rw [hlexeme] at h
          dsimp only at h
          split at h
          · next hrest =>
            cases h
            exact (ih hrest).cons
          · cases h

/-! ## Readers -/

/-- Every reader takes a text or refuses it with an error of its own. -/
structure Reported (text : String) : Prop where
  tokens : (∃ ts, tokenize text = .ok ts) ∨ ∃ e, tokenize text = .error (.malformed e)
  value : (∃ v, parseValue text = .ok v) ∨ ∃ e, parseValue text = .error (.malformed e)
  region : ∀ opens start, ∃ search, locate (Text.lines text) opens start = .ok search
  map : ∃ region, mapRegion? text = .ok region
  requiredMap : ∃ region, requireMap text = .ok region
  record : ∃ record, Record.parse text = .ok record

/-- Every reader stops at a text without a report of its own. -/
structure Unreported (text : String) (f : Literal.Fault) : Prop where
  tokens : tokenize text = .error f
  value : parseValue text = .error f
  region : ∀ opens start, locate (Text.lines text) opens start = .error f
  map : mapRegion? text = .error f
  requiredMap : requireMap text = .error f
  record : Record.parse text = .error f

theorem reported_of_tokenize (h : ∀ n, tokenize text ≠ .error (.noSuchCharacter n)) :
    Reported text := by
  -- Whatever reads the text ends with no other fault than the lexer.
  have hrefuses : ∀ {f}, Refuses text f → ∃ e, f = .malformed e := by
    intro f hf
    cases f with
    | malformed e => exact ⟨e, rfl⟩
    | noSuchCharacter n =>
      rcases hf with ⟨e, he⟩ | hf
      · cases he
      · exact absurd hf (h n)
  have hregion : ∀ opens start, ∃ search, locate (Text.lines text) opens start = .ok search := by
    intro opens start
    rw [locate, Text.joinLines_lines, searchText]
    cases htokens : tokenize text with
    | ok ts => exact ⟨_, rfl⟩
    | error f =>
      obtain ⟨e, rfl⟩ := hrefuses (.inr htokens)
      exact ⟨_, rfl⟩
  obtain ⟨search, hsearch⟩ := hregion opensInstanceMap 0
  rw [← findMap] at hsearch
  constructor
  · cases htokens : tokenize text with
    | ok ts => exact .inl ⟨ts, rfl⟩
    | error f =>
      obtain ⟨e, rfl⟩ := hrefuses (.inr htokens)
      exact .inr ⟨e, rfl⟩
  · cases hvalue : parseValue text with
    | ok v => exact .inl ⟨v, rfl⟩
    | error f =>
      obtain ⟨e, rfl⟩ := hrefuses (refuses_of_parseValue hvalue)
      exact .inr ⟨e, rfl⟩
  · exact hregion
  · rw [mapRegion?, hsearch]
    exact ⟨_, rfl⟩
  · rw [requireMap, hsearch]
    cases search with
    | unreadable e => exact ⟨_, rfl⟩
    | _ =>
      dsimp only
      split <;> exact ⟨_, rfl⟩
  · rw [Record.parse]
    cases hentry : parseEntry text with
    | error f =>
      obtain ⟨e, rfl⟩ := hrefuses (refuses_of_parseEntry hentry)
      exact ⟨_, rfl⟩
    | ok entry =>
      obtain ⟨key, v⟩ := entry
      cases v with
      | object fields =>
        dsimp only
        split <;> exact ⟨_, rfl⟩
      | _ => exact ⟨_, rfl⟩

theorem unreported_of_tokenize (h : tokenize text = .error (.noSuchCharacter n)) :
    Unreported text (.noSuchCharacter n) := by
  have hsignificant : significantTokens text = .error (.noSuchCharacter n) := by
    rw [significantTokens, h]
    rfl
  have hregion : ∀ opens start,
      locate (Text.lines text) opens start = .error (.noSuchCharacter n) := by
    intro opens start
    rw [locate, Text.joinLines_lines, searchText, h]
  have hmap : findMap text = .error (.noSuchCharacter n) := hregion _ _
  constructor
  · exact h
  · rw [parseValue, hsignificant]
    rfl
  · exact hregion
  · rw [mapRegion?, hmap]
    rfl
  · rw [requireMap, hmap]
  · rw [Record.parse, parseEntry, hsignificant]
    rfl

/-- Every reader takes a text or refuses it with an error of its own, unless the text holds an
escape of eight digits for a code point beyond the last character: such an escape can stop all of
them without a report. -/
theorem reported_or_escapes (text : String) :
    Reported text ∨ ∃ n, Escapes text.toList n ∧ Unreported text (.noSuchCharacter n) := by
  by_cases h : ∃ n, tokenize text = .error (.noSuchCharacter n)
  · obtain ⟨n, h⟩ := h
    exact .inr ⟨n, escapes_of_tokensFrom h, unreported_of_tokenize h⟩
  · exact .inl (reported_of_tokenize fun n hn => h ⟨n, hn⟩)

example : tokenize "\"\\U00110000\"" = .error (.noSuchCharacter 0x110000) := by
  decide

end InstanceInventory.Document
