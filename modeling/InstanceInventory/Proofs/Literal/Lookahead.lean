import InstanceInventory.Proofs.Literal.Extent
import Mathlib.Data.List.Forall2

/-! # How far the lexer looks

* `lexeme_line`: what a token is does not depend on the line it stands on.
* `Barrier`: a character past which no token that ends before it looks.
* `lexeme_barrier`: what a token is does not depend on the text past a barrier.
* `exists_lexed`: every text is read to its end, or up to a character at which no token can be read.
* `exists_pieces`: a text that can be split into tokens is written by pieces that are read back.
-/

namespace InstanceInventory.Literal
set_option autoImplicit false

/-! ## Lines -/

/-- Frames that differ only in the lines on which they began. -/
inductive Frame.Alike : Frame → Frame → Prop
  | template (line line' braces : Nat) : Alike (.template line braces) (.template line' braces)
  | quote (line line' : Nat) : Alike (.quote line) (.quote line')

/-- Steps of a quoted string that differ only in the lines of their frames. -/
inductive QuoteStep.Alike : QuoteStep → QuoteStep → Prop
  | done : Alike .done .done
  | next {fs fs' : List Frame} (frames : List.Forall₂ Frame.Alike fs fs') (decoded : Option Char)
    (skip : Nat) : Alike (.next fs decoded skip) (.next fs' decoded skip)

/-- A text that may stand in the place of another after a token: it begins alike, or it is empty. -/
def Replaces (w' w : List Char) : Prop :=
  w.take 1 = w'.take 1 ∨ w' = []

theorem Replaces.head (s : Char) (v v' : List Char) : Replaces (s :: v') (s :: v) :=
  .inl rfl

theorem Replaces.take {u w w' : List Char} (hw : Replaces w' w) (hu : 1 ≤ u.length) {ds : List Char}
    (hds : ds.length = 2) (h : (u ++ w).take 2 = ds → 2 ≤ u.length) :
    (u ++ w').take 2 = ds ↔ (u ++ w).take 2 = ds := by
  rcases Nat.lt_or_ge u.length 2 with hone | htwo
  · obtain ⟨d, rfl⟩ := List.length_eq_one_iff.1 (show u.length = 1 by omega)
    rcases hw with hw | rfl
    · rw [List.singleton_append, List.singleton_append, List.take_succ_cons, List.take_succ_cons, hw]
    · refine ⟨fun heq => ?_, fun heq => absurd (h heq) (by simp)⟩
      rw [← heq] at hds
      simp at hds
  · rw [List.take_append_of_le_length htwo, List.take_append_of_le_length htwo]

theorem escape_append {line line' : Nat} {u w w' : List Char} {e : Char × Nat}
    (h : escape line (u ++ w) = .ok e) (hlength : e.2 < u.length) :
    escape line' (u ++ w') = .ok e := by
  have hu : u ≠ [] := List.ne_nil_of_length_pos (Nat.zero_lt_of_lt hlength)
  obtain ⟨c, u, rfl⟩ := List.exists_cons_of_ne_nil hu
  have hpoint : ∀ width, codePointEscape line width (u ++ w) = .ok e →
      codePointEscape line' width (u ++ w') = .ok e := by
    intro width h
    unfold codePointEscape at h ⊢
    dsimp only at h ⊢
    split_ifs at h with hdigits hlarge
    have hwidth : width ≤ u.length := by
      cases h
      simp only [List.length_cons] at hlength
      omega
    rw [List.take_append_of_le_length hwidth] at hdigits hlarge h ⊢
    rw [if_pos hdigits, if_neg hlarge]
    exact h
  rw [List.cons_append, escape] at h ⊢
  split_ifs at h ⊢
  all_goals first
    | exact h
    | exact hpoint _ h

/-- A step that ends the string, or leaves characters of `u` after those that it takes along. -/
def QuoteStep.Within (u : List Char) : QuoteStep → Prop
  | .done => True
  | .next _ _ skip => skip < u.length

theorem stringStep_append {opened opened' line line' : Nat} {frames frames' : List Frame}
    {close close' step : QuoteStep} {c : Char} {u w w' : List Char}
    (hframes : List.Forall₂ Frame.Alike frames frames') (hclose : close.Alike close')
    (hw : Replaces w' w)
    (h : stringStep opened line frames close c (u ++ w) = .ok step) (hwithin : step.Within u) :
    ∃ step', stringStep opened' line' frames' close' c (u ++ w') = .ok step' ∧
      step.Alike step' := by
  unfold stringStep at h ⊢
  by_cases hnewline : c = '\n'
  · rw [if_pos hnewline] at h
    cases h
  rw [if_neg hnewline] at h ⊢
  by_cases hquote : c = '"'
  · rw [if_pos hquote] at h ⊢
    cases h
    exact ⟨_, rfl, hclose⟩
  rw [if_neg hquote] at h ⊢
  by_cases hslash : c = '\\'
  · rw [if_pos hslash] at h ⊢
    cases he : escape line (u ++ w) with
    | error e =>
      rw [he] at h
      cases h
    | ok e =>
      rw [he] at h
      cases h
      rw [escape_append he hwithin]
      exact ⟨_, rfl, .next hframes _ _⟩
  rw [if_neg hslash] at h ⊢
  have hu : 1 ≤ u.length := by
    split_ifs at h <;> cases h <;> simp only [QuoteStep.Within] at hwithin <;> omega
  have htwo : c = '$' ∨ c = '%' → (u ++ w).take 2 = [c, '\x7b'] → 2 ≤ u.length := by
    intro hc heq
    rw [if_pos hc, if_pos heq] at h
    cases h
    exact hwithin
  have hone : (u ++ w').take 1 = (u ++ w).take 1 := by
    rw [List.take_append_of_le_length hu, List.take_append_of_le_length hu]
  by_cases hc : c = '$' ∨ c = '%'
  · rw [if_pos hc] at h ⊢
    rw [if_congr (hw.take hu rfl (htwo hc)) rfl rfl, hone]
    split_ifs at h ⊢ <;> cases h
    · exact ⟨_, rfl, .next hframes _ _⟩
    · exact ⟨_, rfl, .next (.cons (.template _ _ _) hframes) _ _⟩
    · exact ⟨_, rfl, .next hframes _ _⟩
  · rw [if_neg hc] at h ⊢
    cases h
    exact ⟨_, rfl, .next hframes _ _⟩

theorem templateStep_alike {inner inner' braces line line' : Nat} {outer outer' : List Frame}
    (houter : List.Forall₂ Frame.Alike outer outer') (c : Char) :
    (templateStep inner braces line outer c).Alike (templateStep inner' braces line' outer' c) := by
  unfold templateStep
  split_ifs
  · exact .next (.cons (.quote _ _) (.cons (.template _ _ _) houter)) _ _
  · exact .next (.cons (.template _ _ _) houter) _ _
  · cases braces with
    | zero => exact .next houter _ _
    | succ n => exact .next (.cons (.template _ _ _) houter) _ _
  · exact .next (.cons (.template _ _ _) houter) _ _

theorem quoteStep_append {opened opened' line line' : Nat} {frames frames' : List Frame}
    {step : QuoteStep} {c : Char} {u w w' : List Char}
    (hframes : List.Forall₂ Frame.Alike frames frames') (hw : Replaces w' w)
    (h : quoteStep opened line frames c (u ++ w) = .ok step) (hwithin : step.Within u) :
    ∃ step', quoteStep opened' line' frames' c (u ++ w') = .ok step' ∧ step.Alike step' := by
  cases hframes with
  | nil => exact stringStep_append .nil .done hw h hwithin
  | cons hframe hframes =>
    cases hframe with
    | quote inner inner' =>
      exact stringStep_append (.cons (.quote inner inner') hframes) (.next hframes none 0) hw h
        hwithin
    | template inner inner' braces =>
      cases h
      exact ⟨_, rfl, templateStep_alike hframes c⟩

/-- A quoted string is read alike on other lines and before another text, where it ends before
that text. -/
theorem quotedFrom_append {opened opened' line line' : Nat} {frames frames' : List Frame}
    (hframes : List.Forall₂ Frame.Alike frames frames') {read q : QuotedString} {skip : Nat}
    {u w w' : List Char} (hw : Replaces w' w)
    (h : quotedFrom opened line frames read skip (u ++ w) = .ok q)
    (hlength : q.length ≤ read.length + u.length) :
    quotedFrom opened' line' frames' read skip (u ++ w') = .ok q := by
  induction u generalizing line line' frames frames' read skip with
  | nil =>
    have := (quotedFrom_length h).1
    rw [List.length_nil] at hlength
    omega
  | cons c u ih =>
    have hempty : frames.isEmpty = frames'.isEmpty := by cases hframes <;> rfl
    have hpush : ∀ d, (read.push (!frames.isEmpty) c d).length = read.length + 1 := fun _ => rfl
    rw [List.length_cons] at hlength
    rw [List.cons_append] at h ⊢
    cases skip with
    | succ skip =>
      rw [quotedFrom] at h ⊢
      rw [← hempty]
      exact ih hframes h (by rw [hpush]; omega)
    | zero =>
      rw [quotedFrom] at h ⊢
      cases hstep : quoteStep opened line frames c (u ++ w) with
      | error e =>
        rw [hstep] at h
        cases h
      | ok step =>
        rw [hstep] at h
        have hwithin : step.Within u := by
          cases step with
          | done => trivial
          | next fs d skip =>
            have := (quotedFrom_length h).1
            rw [hpush] at this
            simp only [QuoteStep.Within]
            omega
        obtain ⟨step', hstep', halike⟩ : ∃ step', quoteStep opened' line' frames' c (u ++ w') =
            .ok step' ∧ step.Alike step' := quoteStep_append hframes hw hstep hwithin
        rw [hstep']
        cases halike with
        | done => exact h
        | next hframes' d skip =>
          dsimp only at h ⊢
          rw [← hempty]
          exact ih hframes' h (by rw [hpush]; omega)

theorem quotedString_append {line line' : Nat} {q : QuotedString} {u w w' : List Char}
    (hw : Replaces w' w) (h : quotedString line (u ++ w) = .ok q)
    (hlength : q.length ≤ u.length) : quotedString line' (u ++ w') = .ok q :=
  quotedFrom_append .nil hw h (by rwa [Nat.zero_add])

theorem heredoc_line {line line' : Nat} {cs : List Char} {o : HeredocOpening} {b : List Char × Nat}
    (h : heredoc line cs o = .ok b) : heredoc line' cs o = .ok b := by
  unfold heredoc at h ⊢
  dsimp only at h ⊢
  split at h
  · cases h
  · exact h

/-- What a token is does not depend on the line it stands on. -/
theorem lexeme_line {line line' : Nat} {c : Char} {rest : List Char} {k : Token.Kind} {n : Nat}
    (h : lexeme line c rest = .ok (k, n)) : lexeme line' c rest = .ok (k, n) := by
  cases leading c with
  | slash =>
    rw [lexeme_at_slash] at h ⊢
    split_ifs at h ⊢
    · exact h
    · split at h
      · exact h
      · cases h
    · exact h
  | quote =>
    rw [lexeme_at_quote_iff] at h ⊢
    obtain ⟨q, hq, hk⟩ := h
    have hq' : quotedString line' (rest ++ []) = .ok q := by
      refine quotedString_append (.inl rfl) (by rw [List.append_nil, hq]) ?_
      have := (quotedFrom_length hq).2
      rwa [Nat.zero_add] at this
    rw [List.append_nil] at hq'
    exact ⟨q, hq', hk⟩
  | angle =>
    rw [lexeme_at_angle_iff] at h ⊢
    refine h.imp_left ?_
    rintro ⟨o, b, ho, hb, hk⟩
    exact ⟨o, b, ho, heredoc_line hb, hk⟩
  | newline => exact h
  | hash => exact h
  | equals => exact h
  | digit hdigit => rwa [lexeme_at_digit _ rest hdigit] at h ⊢
  | name hdigit hname => rwa [lexeme_at_name _ rest hdigit hname] at h ⊢
  | mark hspecial hdigit hname => rwa [lexeme_at_mark _ rest hspecial hdigit hname] at h ⊢

/-! ## Barriers -/

/-- A character past which no token that ends before it looks. -/
structure Barrier (s : Char) : Prop where
  name : isNameChar s = false
  digit : Text.isDecimalDigit s = false
  gap : isGap s = false
  point : s ≠ '.'
  plus : s ≠ '+'
  angle : s ≠ '<'

theorem barrier_newline : Barrier '\n' := by
  constructor <;> decide

theorem barrier_openBrace : Barrier '\x7b' := by
  constructor <;> decide

theorem barrier_closeBrace : Barrier '\x7d' := by
  constructor <;> decide

theorem barrier_quote : Barrier '"' := by
  constructor <;> decide

theorem takeWhile_append_barrier {p : Char → Bool} {s : Char} (hs : p s = false)
    (u v : List Char) : (u ++ s :: v).takeWhile p = u.takeWhile p := by
  induction u with
  | nil => rw [List.nil_append, List.takeWhile_cons, hs, if_neg Bool.false_ne_true, List.takeWhile_nil]
  | cons c u ih => rw [List.cons_append, List.takeWhile_cons, List.takeWhile_cons, ih]

theorem takeWhile_append_of_length {p : Char → Bool} {s : Char} {u v v' : List Char}
    (h : ((u ++ s :: v).takeWhile p).length ≤ u.length) :
    (u ++ s :: v').takeWhile p = (u ++ s :: v).takeWhile p := by
  induction u with
  | nil =>
    rw [List.nil_append, List.takeWhile_cons] at h ⊢
    rw [List.nil_append, List.takeWhile_cons]
    split_ifs at h ⊢
    · simp at h
    · rfl
  | cons c u ih =>
    rw [List.cons_append, List.takeWhile_cons] at h ⊢
    rw [List.cons_append, List.takeWhile_cons]
    split_ifs at h ⊢
    · rw [ih (Nat.le_of_succ_le_succ h)]
    · rfl

theorem take_one_append_barrier {s c : Char} (hc : s ≠ c) (u v : List Char) :
    (u ++ s :: v).take 1 = [c] ↔ u.take 1 = [c] := by
  cases u with
  | nil => simp [hc]
  | cons d u => simp

theorem nameChars_length (cs : List Char) : (nameChars cs).length ≤ cs.length := by
  cases cs with
  | nil => exact Nat.le_refl 0
  | cons c cs =>
    rw [nameChars]
    split_ifs
    · exact Nat.succ_le_succ (List.takeWhile_sublist _).length_le
    · exact Nat.zero_le _

/-- The lines up to the one that closes a heredoc hold what is read of the first line already. -/
theorem length_le_heredocBody? {marker piece cs last : List Char} {ls : List (List Char)}
    (h : heredocBody? marker (Text.splitFrom (· == '\n') piece cs) = some (ls, last)) :
    piece.length ≤ closedLength ls + last.length := by
  induction cs generalizing piece with
  | nil =>
    rw [Text.splitFrom, heredocBody?] at h
    split_ifs at h
    · cases h
      simp
    · simp [heredocBody?] at h
  | cons c cs ih =>
    rw [Text.splitFrom] at h
    split_ifs at h
    · rw [heredocBody?] at h
      split_ifs at h
      · cases h
        simp
      · obtain ⟨b, hb, he⟩ := Option.map_eq_some_iff.1 h
        cases he
        simp only [closedLength, List.length_reverse]
        omega
    · have := ih h
      rw [List.length_cons] at this
      omega

/-- The lines of a heredoc that ends before a text do not depend on the text. -/
theorem heredocBody?_append {marker piece u w w' last : List Char} {ls : List (List Char)}
    (hw : Replaces w' w)
    (h : heredocBody? marker (Text.splitFrom (· == '\n') piece (u ++ w)) = some (ls, last))
    (hlength : closedLength ls + last.length ≤ piece.length + u.length) :
    heredocBody? marker (Text.splitFrom (· == '\n') piece (u ++ w')) = some (ls, last) := by
  induction u generalizing piece ls with
  | nil =>
    rw [List.nil_append] at h ⊢
    cases w with
    | nil =>
      obtain rfl : w' = [] := by
        rcases hw with hw | rfl
        · simpa using hw.symm
        · rfl
      exact h
    | cons s v =>
      rw [Text.splitFrom] at h
      split_ifs at h with hs
      · rw [heredocBody?] at h
        split_ifs at h with hmarker
        · rcases hw with hw | rfl
          · obtain ⟨v', rfl⟩ : ∃ v', w' = s :: v' := by
              cases w' with
              | nil => cases hw
              | cons s' v' =>
                cases hw
                exact ⟨v', rfl⟩
            rw [Text.splitFrom, if_pos hs, heredocBody?, if_pos hmarker]
            exact h
          · rw [Text.splitFrom, heredocBody?, if_pos hmarker]
            exact h
        · obtain ⟨b, hb, he⟩ := Option.map_eq_some_iff.1 h
          cases he
          simp only [closedLength, List.length_reverse, List.length_nil] at hlength
          omega
      · have := length_le_heredocBody? h
        simp only [List.length_cons, List.length_nil] at this hlength
        omega
  | cons c u ih =>
    rw [List.cons_append, Text.splitFrom] at h ⊢
    split_ifs at h ⊢
    · rw [heredocBody?] at h ⊢
      split_ifs at h ⊢
      · exact h
      · obtain ⟨b, hb, he⟩ := Option.map_eq_some_iff.1 h
        cases he
        rw [ih hb]
        · rfl
        · simp only [closedLength, List.length_reverse, List.length_cons,
            List.length_nil] at hlength ⊢
          omega
    · refine ih h ?_
      rw [List.length_cons] at hlength ⊢
      omega

theorem heredoc_append {line : Nat} {u w w' : List Char} {o : HeredocOpening}
    {b : List Char × Nat} (hw : Replaces w' w) (h : heredoc line (u ++ w) o = .ok b)
    (hlength : b.2 ≤ u.length) : heredoc line (u ++ w') o = .ok b := by
  have hopening := (heredoc_length h).1
  unfold heredoc at h ⊢
  rw [List.drop_append_of_le_length (by omega)] at h ⊢
  obtain ⟨d, rest, hd⟩ := List.exists_cons_of_length_pos
    (show 0 < (u.drop o.length).length by rw [List.length_drop]; omega)
  have hrest : rest.length + 1 + o.length = u.length := by
    have := congrArg List.length hd
    rw [List.length_drop, List.length_cons] at this
    omega
  rw [hd] at h ⊢
  dsimp only [List.cons_append] at h ⊢
  split at h
  · cases h
  · next ls last hbody =>
    cases h
    rw [Text.lineChars, Text.splitWhen] at hbody ⊢
    rw [heredocBody?_append hw hbody]
    dsimp only at hlength
    rw [List.length_nil]
    omega

variable {s : Char} (hs : Barrier s)
include hs

theorem nameChars_barrier (u v : List Char) : nameChars (u ++ s :: v) = nameChars u := by
  cases u with
  | nil =>
    have hstart : isNameStart s = false := by
      have := hs.name
      rw [isNameChar, Bool.or_assoc, Bool.or_eq_false_iff] at this
      exact this.1
    rw [List.nil_append]
    simp [nameChars, hstart]
  | cons c u => rw [List.cons_append, nameChars, nameChars, takeWhile_append_barrier hs.name]

theorem lineEnd?_barrier (u v v' : List Char) :
    lineEnd? (u ++ s :: v) = lineEnd? (u ++ s :: v') := by
  have hgap := hs.gap
  have hreturn : s ≠ '\r' := by
    rintro rfl
    exact absurd hgap (by decide)
  match u with
  | [] => unfold lineEnd?; split <;> split <;> simp_all
  | [c] => unfold lineEnd?; split <;> split <;> simp_all
  | c :: d :: u => unfold lineEnd?; split <;> split <;> simp_all

theorem heredocOpening?_marks (u v v' : List Char) :
    heredocOpening? ('<' :: '<' :: (u ++ s :: v)) =
      heredocOpening? ('<' :: '<' :: (u ++ s :: v')) := by
  have hminus : s ≠ '-' := by
    rintro rfl
    exact absurd hs.name (by decide)
  have hblank : (s == ' ' || s == '\t') = false := by
    have := hs.gap
    rw [isGap, Bool.or_eq_false_iff] at this
    exact this.1
  obtain ⟨x, hx⟩ : ∃ x, ∀ v, (if u.take 1 = ['-'] then (u ++ s :: v).drop 1 else u ++ s :: v) =
      x ++ s :: v := by
    by_cases hflush : u.take 1 = ['-']
    · refine ⟨u.drop 1, fun v => ?_⟩
      have hu : u ≠ [] := by
        rintro rfl
        cases hflush
      rw [if_pos hflush, List.drop_append_of_le_length (List.length_pos_iff.2 hu)]
    · exact ⟨u, fun v => if_neg hflush⟩
  simp only [heredocOpening?, take_one_append_barrier hminus, hx, nameChars_barrier hs,
    List.drop_append_of_le_length (nameChars_length x)]
  rw [takeWhile_append_barrier hblank, takeWhile_append_barrier hblank,
    List.drop_append_of_le_length (List.takeWhile_sublist _).length_le,
    List.drop_append_of_le_length (List.takeWhile_sublist _).length_le,
    lineEnd?_barrier hs _ v v']

theorem heredocOpening?_barrier (u v v' : List Char) :
    heredocOpening? (u ++ s :: v) = heredocOpening? (u ++ s :: v') := by
  match u with
  | [] => unfold heredocOpening?; split <;> split <;> simp_all [hs.angle]
  | [c] => unfold heredocOpening?; split <;> split <;> simp_all [hs.angle]
  | c :: d :: u =>
    by_cases hcd : c = '<' ∧ d = '<'
    · obtain ⟨rfl, rfl⟩ := hcd
      exact heredocOpening?_marks hs u v v'
    · unfold heredocOpening?; split <;> split <;> simp_all

theorem digitChars_barrier (u v : List Char) : digitChars (u ++ s :: v) = digitChars u :=
  takeWhile_append_barrier hs.digit u v

theorem fractionChars_barrier (u v : List Char) :
    fractionChars (u ++ s :: v) = fractionChars u := by
  cases u with
  | nil =>
    have hpoint := hs.point
    unfold fractionChars
    split
    · simp_all
    · rfl
  | cons c u =>
    rw [List.cons_append]
    by_cases hc : c = '.'
    · subst hc
      exact digitChars_barrier hs u v
    · unfold fractionChars
      split <;> split <;> simp_all

theorem exponentPart?_barrier (u v : List Char) :
    exponentPart? (u ++ s :: v) = exponentPart? u := by
  have hname := hs.name
  cases u with
  | nil =>
    have hmark : ¬(s = 'e' ∨ s = 'E') := by
      rintro (rfl | rfl) <;> exact absurd hname (by decide)
    rw [List.nil_append, exponentPart?, if_neg hmark]
    rfl
  | cons c u =>
    have hminus : s ≠ '-' := by
      rintro rfl
      exact absurd hname (by decide)
    rw [List.cons_append, exponentPart?, exponentPart?]
    have hdigits : ∀ signed : Prop, [Decidable signed] → (signed → u ≠ []) →
        digitChars (if signed then (u ++ s :: v).drop 1 else u ++ s :: v) =
          digitChars (if signed then u.drop 1 else u) := by
      intro signed _ hu
      split_ifs with hsigned
      · rw [List.drop_append_of_le_length (List.length_pos_iff.2 (hu hsigned))]
        exact digitChars_barrier hs _ v
      · exact digitChars_barrier hs u v
    simp only [take_one_append_barrier hs.plus, take_one_append_barrier hminus]
    rw [hdigits]
    rintro (h | h) rfl <;> cases h

theorem numberAt_barrier (u v : List Char) : numberAt (u ++ s :: v) = numberAt u := by
  have hwhole := digitChars_length u
  have hfraction := fractionChars_length (u.drop (digitChars u).length)
  rw [List.length_drop] at hfraction
  unfold numberAt
  simp only [digitChars_barrier hs, List.drop_append_of_le_length hwhole,
    fractionChars_barrier hs]
  rw [List.drop_append_of_le_length, exponentPart?_barrier hs]
  split_ifs with hempty
  · exact hwhole
  · have := hfraction.resolve_left hempty
    omega

/-- What a token that ends before a barrier is does not depend on the text past the barrier. -/
theorem lexeme_barrier {line : Nat} {c : Char} {u v v' : List Char} {k : Token.Kind} {n : Nat}
    (h : lexeme line c (u ++ s :: v) = .ok (k, n)) (hn : n ≤ u.length) :
    lexeme line c (u ++ s :: v') = .ok (k, n) := by
  have htake : (u ++ s :: v').take 1 = (u ++ s :: v).take 1 := by cases u <;> rfl
  cases leading c with
  | newline => exact h
  | hash =>
    rw [lexeme_at_hash] at h ⊢
    cases h
    rw [takeWhile_append_of_length hn]
  | slash =>
    rw [lexeme_at_slash] at h ⊢
    rw [htake]
    split_ifs at h ⊢
    · cases h
      rw [takeWhile_append_of_length hn]
    · split at h
      · next m hclosed =>
        cases h
        have hu : 1 ≤ u.length := by omega
        have hm : m ≤ (u.drop 1).length := by
          rw [List.length_drop]
          omega
        rw [List.drop_append_of_le_length hu] at hclosed ⊢
        rw [blockCommentLength?_append hclosed hm]
      · cases h
    · exact h
  | quote =>
    rw [lexeme_at_quote_iff] at h ⊢
    obtain ⟨q, hq, rfl, rfl⟩ := h
    exact ⟨q, quotedString_append (.head s v v') hq hn, rfl, rfl⟩
  | angle =>
    have hopening : heredocOpening? ('<' :: (u ++ s :: v')) =
        heredocOpening? ('<' :: (u ++ s :: v)) := heredocOpening?_barrier hs ('<' :: u) v' v
    rw [lexeme_at_angle_iff] at h ⊢
    rw [hopening]
    refine h.imp_left ?_
    rintro ⟨o, b, ho, hb, rfl, rfl⟩
    have hb' : heredoc line (('<' :: u) ++ s :: v') o = .ok b := by
      refine heredoc_append (.head s v v') hb ?_
      rw [List.length_cons]
      omega
    exact ⟨o, b, ho, hb', rfl, rfl⟩
  | equals =>
    rw [lexeme_at_equals] at h ⊢
    rwa [htake]
  | digit hdigit =>
    have hnumber : numberAt (c :: (u ++ s :: v')) = numberAt (c :: (u ++ s :: v)) :=
      (numberAt_barrier hs (c :: u) v').trans (numberAt_barrier hs (c :: u) v).symm
    rw [lexeme_at_digit line _ hdigit] at h ⊢
    rwa [hnumber]
  | name hdigit hname =>
    rw [lexeme_at_name line _ hdigit hname, takeWhile_append_barrier hs.name] at h ⊢
    exact h
  | mark hspecial hdigit hname => rwa [lexeme_at_mark line _ hspecial hdigit hname] at h ⊢

omit hs

/-! ## Pieces of a text -/

/-- No token can be read at the character `c` before `rest`. -/
structure Unreadable (c : Char) (rest : List Char) : Prop where
  solid : isGap c = false
  fails : ∀ line, ∃ f, lexeme line c rest = .error f

theorem Unreadable.tokensFrom {c : Char} {rest : List Char} (h : Unreadable c rest)
    (place line : Nat) :
    ∃ f, lexeme line c rest = .error f ∧ tokensFrom place line 0 (c :: rest) = .error f := by
  obtain ⟨f, hf⟩ := h.fails line
  refine ⟨f, hf, ?_⟩
  rw [Literal.tokensFrom, h.solid, hf]
  rfl

/-- Every text is read to its end, or up to a character at which no token can be read. -/
theorem exists_lexed (cs : List Char) :
    ∃ ps after, charsOf ps ++ after = cs ∧ Lexed after ps ∧
      (after = [] ∨ ∃ c rest, after = c :: rest ∧ Unreadable c rest) := by
  induction hn : cs.length using Nat.strongRecOn generalizing cs with
  | _ m ih =>
    subst hn
    cases cs with
    | nil => exact ⟨[], [], rfl, .nil, .inl rfl⟩
    | cons c rest =>
      by_cases hgap : isGap c = true
      · obtain ⟨ps, after, hchars, hlexed, hafter⟩ := ih rest.length (Nat.lt_succ_self _) rest rfl
        exact ⟨.gap c :: ps, after, by rw [charsOf_gap, List.cons_append, hchars],
          .gap hgap hlexed, hafter⟩
      rw [Bool.not_eq_true] at hgap
      cases hlexeme : lexeme 0 c rest with
      | error f =>
        refine ⟨[], c :: rest, rfl, .nil, .inr ⟨c, rest, rfl, hgap, fun line => ?_⟩⟩
        cases hline : lexeme line c rest with
        | error f => exact ⟨f, rfl⟩
        | ok k =>
          rw [lexeme_line hline] at hlexeme
          cases hlexeme
      | ok kn =>
        obtain ⟨k, n⟩ := kn
        have hlength : (rest.take n).length = n := List.length_take_of_le (lexeme_length hlexeme)
        obtain ⟨ps, after, hchars, hlexed, hafter⟩ := ih (rest.drop n).length
          (by rw [List.length_drop, List.length_cons]; omega) (rest.drop n) rfl
        refine ⟨.token k c (rest.take n) :: ps, after, ?_, .token hgap (fun line => ?_) hlexed, hafter⟩
        · rw [charsOf_token, List.cons_append, List.append_assoc, hchars, List.take_append_drop]
        · rw [hchars, List.take_append_drop, hlength]
          exact lexeme_line hlexeme

/-- The tokens of a text are those of pieces that are read back. -/
theorem exists_pieces_from {place line : Nat} {cs : List Char} {ts : List Token}
    (h : tokensFrom place line 0 cs = .ok ts) :
    ∃ ps, charsOf ps = cs ∧ Lexed [] ps ∧ placed place line ps = ts := by
  obtain ⟨ps, after, rfl, hlexed, hafter⟩ := exists_lexed cs
  rw [tokensFrom_charsOf hlexed] at h
  rcases hafter with rfl | ⟨c, rest, rfl, hunreadable⟩
  · refine ⟨ps, (List.append_nil _).symm, hlexed, ?_⟩
    simpa [tokensFrom, Except.map] using h
  · obtain ⟨f, -, hf⟩ := hunreadable.tokensFrom _ _
    rw [hf] at h
    cases h

theorem exists_pieces {text : String} {ts : List Token} (h : tokenize text = .ok ts) :
    ∃ ps, charsOf ps = text.toList ∧ Lexed [] ps ∧ placed 0 0 ps = ts :=
  exists_pieces_from h

/-- Pieces that are read back before one text are read back before another, if a barrier stands
before both. -/
theorem Lexed.barrier {s : Char} (hs : Barrier s) {v v' : List Char} {ps : List Piece}
    (h : Lexed (s :: v) ps) : Lexed (s :: v') ps := by
  induction h with
  | nil => exact .nil
  | gap blank _ ih => exact .gap blank ih
  | @token k c cs ps solid read _ ih =>
    refine .token solid (fun line => ?_) ih
    have hread := read line
    rw [← List.append_assoc] at hread ⊢
    exact lexeme_barrier hs hread (by simp)

end InstanceInventory.Literal
