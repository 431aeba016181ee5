import InstanceInventory.Proofs.Literal.Grammar
import InstanceInventory.Proofs.Literal.Atom
import InstanceInventory.Proofs.Literal.Lookahead

/-! # Texts cut off after a token

* `lexeme_cut`: a token is the same where the text ends with it, unless it could open a heredoc.
* `Lexed.cut`: pieces that are read before a text are read without it.
* `OnlyMinus`: tokens whose operators are all minus signs, as those of a value are.
* `Token.back`, `Token.forth`: a token with its place counted from another one; the grammar does not
  see the difference (`ValueTokens.map`).
-/

namespace InstanceInventory.Literal
set_option autoImplicit false

/-! ## Names and numbers -/

theorem takeWhile_cut {p : Char → Bool} {u w : List Char}
    (h : ((u ++ w).takeWhile p).length ≤ u.length) : u.takeWhile p = (u ++ w).takeWhile p := by
  induction u with
  | nil => exact (List.length_eq_zero_iff.1 (Nat.le_zero.1 h)).symm
  | cons c u ih =>
    rw [List.cons_append, List.takeWhile_cons] at h
    rw [List.cons_append, List.takeWhile_cons, List.takeWhile_cons]
    split_ifs at h ⊢
    · rw [ih (Nat.le_of_succ_le_succ h)]
    · rfl

theorem digitChars_cut {u w : List Char}
    (h : digitChars (u ++ w) ≠ [] → (digitChars (u ++ w)).length ≤ u.length) :
    digitChars u = digitChars (u ++ w) := by
  refine takeWhile_cut ?_
  by_cases hnil : digitChars (u ++ w) = []
  · rw [← digitChars, hnil]
    exact Nat.zero_le _
  · exact h hnil

theorem fractionChars_cut {u w : List Char}
    (h : (fractionChars (u ++ w)).isEmpty = true ∨ (fractionChars (u ++ w)).length + 1 ≤ u.length) :
    fractionChars u = fractionChars (u ++ w) := by
  cases u with
  | nil =>
    rcases h with h | h
    · exact (List.isEmpty_iff.1 h).symm
    · simp at h
  | cons c u =>
    by_cases hc : c = '.'
    · subst hc
      refine digitChars_cut fun hsome => ?_
      exact Nat.le_of_succ_le_succ (h.resolve_left fun hempty => hsome (List.isEmpty_iff.1 hempty))
    · have hnone : ∀ cs, fractionChars (c :: cs) = [] := by
        intro cs
        unfold fractionChars
        split
        · next heq => exact absurd (List.cons.inj heq).1 hc
        · rfl
      rw [List.cons_append, hnone, hnone]

/-- The digits of an exponent that ends before a text do not depend on the text. -/
theorem exponentDigits_cut (signed : Prop) [Decidable signed] {d : Char} {u w : List Char}
    (h : digitChars (if signed then (d :: u ++ w).drop 1 else d :: u ++ w) ≠ [] →
      (if signed then 1 else 0) +
        (digitChars (if signed then (d :: u ++ w).drop 1 else d :: u ++ w)).length ≤ (d :: u).length) :
    digitChars (if signed then (d :: u).drop 1 else d :: u) =
      digitChars (if signed then (d :: u ++ w).drop 1 else d :: u ++ w) := by
  split_ifs at h ⊢
  · refine digitChars_cut (u := u) fun hsome => ?_
    have := h hsome
    simp only [List.cons_append, List.drop_one, List.tail_cons, List.length_cons] at this
    omega
  · refine digitChars_cut (u := d :: u) fun hsome => ?_
    have := h hsome
    simp only [List.length_cons] at this ⊢
    omega

theorem exponentPart?_cut {u w : List Char}
    (h : ∀ e, exponentPart? (u ++ w) = some e → e.2.2 ≤ u.length) :
    exponentPart? u = exponentPart? (u ++ w) := by
  cases u with
  | nil =>
    cases he : exponentPart? ([] ++ w) with
    | none => rfl
    | some e =>
      have hlength := h e he
      cases w with
      | nil => cases he
      | cons c w =>
        rw [List.nil_append, exponentPart?] at he
        dsimp only at he
        split_ifs at he <;> cases he <;> simp only [List.length_nil] at hlength <;> omega
  | cons c u =>
    rw [List.cons_append] at h ⊢
    rw [exponentPart?] at h
    rw [exponentPart?, exponentPart?]
    dsimp only at h ⊢
    by_cases hc : c = 'e' ∨ c = 'E'
    · rw [if_pos hc] at h
      rw [if_pos hc, if_pos hc]
      cases u with
      | nil =>
        -- What is read of the text past the mark would be at least one digit.
        rw [List.nil_append] at h ⊢
        have hdigits : (digitChars (if w.take 1 = ['+'] ∨ w.take 1 = ['-'] then w.drop 1 else w)).isEmpty
            = true := by
          by_contra hsome
          have := h _ (if_neg hsome)
          have := List.length_pos_iff.2 fun hnil => hsome (List.isEmpty_iff.2 hnil)
          simp only [List.length_singleton] at *
          omega
        rw [if_pos hdigits]
        rfl
      | cons d u =>
        have htake : (d :: u ++ w).take 1 = (d :: u).take 1 := rfl
        rw [htake] at h ⊢
        have hdigits := exponentDigits_cut ((d :: u).take 1 = ['+'] ∨ (d :: u).take 1 = ['-'])
          (d := d) (u := u) (w := w) fun hsome => by
            have := h _ (if_neg fun hempty => hsome (List.isEmpty_iff.1 hempty))
            simp only [List.length_cons] at this ⊢
            omega
        rw [hdigits]
    · rw [if_neg hc, if_neg hc]

/-- How many characters a number takes before its exponent. -/
def mantissaLength (cs : List Char) : Nat :=
  (digitChars cs).length + if (fractionChars (cs.drop (digitChars cs).length)).isEmpty then 0
    else (fractionChars (cs.drop (digitChars cs).length)).length + 1

theorem numberAt_of_exponent {cs : List Char} {e : Bool × List Char × Nat}
    (h : exponentPart? (cs.drop (mantissaLength cs)) = some e) :
    (numberAt cs).2 = mantissaLength cs + e.2.2 := by
  unfold mantissaLength at h ⊢
  unfold numberAt
  dsimp only
  rw [h]

theorem numberAt_of_none {cs : List Char} (h : exponentPart? (cs.drop (mantissaLength cs)) = none) :
    (numberAt cs).2 = mantissaLength cs := by
  unfold mantissaLength at h ⊢
  unfold numberAt
  dsimp only
  rw [h]
  dsimp only
  split_ifs
  · rfl
  · rfl

theorem numberAt_congr {cs ds : List Char} (hwhole : digitChars cs = digitChars ds)
    (hfraction : fractionChars (cs.drop (digitChars ds).length) =
      fractionChars (ds.drop (digitChars ds).length))
    (hexponent : exponentPart? (cs.drop (mantissaLength ds)) =
      exponentPart? (ds.drop (mantissaLength ds))) : numberAt cs = numberAt ds := by
  unfold mantissaLength at hexponent
  unfold numberAt
  dsimp only
  rw [hwhole, hfraction, hexponent]

theorem numberAt_cut {u w : List Char} (h : (numberAt (u ++ w)).2 ≤ u.length) :
    numberAt u = numberAt (u ++ w) := by
  have hmantissa : mantissaLength (u ++ w) ≤ u.length ∧
      ∀ e, exponentPart? ((u ++ w).drop (mantissaLength (u ++ w))) = some e →
        mantissaLength (u ++ w) + e.2.2 ≤ u.length := by
    cases he : exponentPart? ((u ++ w).drop (mantissaLength (u ++ w))) with
    | none =>
      rw [numberAt_of_none he] at h
      exact ⟨h, by simp⟩
    | some e =>
      rw [numberAt_of_exponent he] at h
      refine ⟨by omega, fun e' he' => ?_⟩
      cases he'
      exact h
  have hle : (digitChars (u ++ w)).length ≤ u.length := by
    unfold mantissaLength at hmantissa
    omega
  refine numberAt_congr (takeWhile_cut hle) ?_ ?_
  · have hlength := hmantissa.1
    unfold mantissaLength at hlength
    rw [List.drop_append_of_le_length hle] at hlength ⊢
    refine fractionChars_cut ?_
    split_ifs at hlength with hempty
    · exact .inl hempty
    · refine .inr ?_
      rw [List.length_drop]
      omega
  · rw [List.drop_append_of_le_length hmantissa.1]
    refine exponentPart?_cut fun e he => ?_
    rw [← List.drop_append_of_le_length hmantissa.1] at he
    have := hmantissa.2 e he
    rw [List.length_drop]
    omega

/-! ## Tokens -/

theorem take_one_cut {u w : List Char} {d : Char} (h : u ≠ [] ∨ (u ++ w).take 1 ≠ [d]) :
    u.take 1 = [d] ↔ (u ++ w).take 1 = [d] := by
  cases u with
  | nil =>
    rcases h with h | h
    · exact absurd rfl h
    · exact ⟨fun h => (nomatch h), fun heq => absurd heq h⟩
  | cons c u => rfl

theorem lineEnd?_stop {cs : List Char} {n : Nat} (h : lineEnd? cs = some n) :
    cs.drop n = [] ∨ ∃ rest, cs.drop n = '\n' :: rest := by
  unfold lineEnd? at h
  split at h <;> cases h
  · exact .inl rfl
  · exact .inr ⟨_, rfl⟩
  · exact .inl rfl
  · exact .inr ⟨_, rfl⟩

/-- The line on which a heredoc opens ends with the opening. -/
theorem heredocOpening?_stop {cs : List Char} {o : HeredocOpening}
    (h : heredocOpening? cs = some o) :
    cs.drop o.length = [] ∨ ∃ rest, cs.drop o.length = '\n' :: rest := by
  unfold heredocOpening? at h
  split at h
  · next rest =>
    dsimp only at h
    have hdrop : ∀ flush m k n : Nat, ('<' :: '<' :: rest).drop (2 + flush + m + k + n) =
        (((rest.drop flush).drop m).drop k).drop n := by
      intro flush m k n
      rw [List.drop_drop, List.drop_drop, List.drop_drop,
        show 2 + flush + m + k + n = flush + (m + (k + n)) + 2 by omega]
      rfl
    split_ifs at h
    · obtain ⟨n, hn, rfl⟩ := Option.map_eq_some_iff.1 h
      dsimp only
      rw [hdrop]
      exact lineEnd?_stop hn
    · obtain ⟨n, hn, rfl⟩ := Option.map_eq_some_iff.1 h
      dsimp only
      rw [hdrop]
      exact lineEnd?_stop hn
  · cases h

theorem heredocOpening?_cut {c : Char} {u w : List Char} {o : HeredocOpening}
    {b : List Char × Nat} {line : Nat} (ho : heredocOpening? (c :: (u ++ w)) = some o)
    (hb : heredoc line (c :: (u ++ w)) o = .ok b) (hlength : b.2 ≤ (c :: u).length) :
    heredocOpening? (c :: u) = some o := by
  have hopening := (heredoc_length hb).1
  have hlt : o.length < (c :: u).length := by omega
  have hstop := heredocOpening?_stop ho
  rw [← List.cons_append, List.drop_append_of_le_length (Nat.le_of_lt hlt),
    List.drop_eq_getElem_cons hlt] at hstop
  obtain ⟨rest, hrest⟩ := hstop.resolve_left (by simp)
  have hnewline : (c :: u)[o.length] = '\n' := (List.cons.inj hrest).1
  have hsplit : c :: u = (c :: u).take o.length ++ '\n' :: (c :: u).drop (o.length + 1) := by
    rw [← hnewline, ← List.drop_eq_getElem_cons hlt, List.take_append_drop]
  rw [← List.cons_append, hsplit, List.append_assoc, List.cons_append] at ho
  rw [hsplit, heredocOpening?_barrier barrier_newline _ _ (_ ++ w), ho]

theorem lexeme_slash_cut {line : Nat} {u w : List Char} {k : Token.Kind} {n : Nat}
    (h : lexeme line '/' (u ++ w) = .ok (k, n)) (hn : n ≤ u.length) :
    lexeme line '/' u = .ok (k, n) := by
  -- A mark that makes a comment of the slash belongs to it, so it stands in the text.
  have hmark : ∀ d, (u ++ w).take 1 = [d] → 1 ≤ u.length → u.take 1 = [d] :=
    fun d hd hu => (take_one_cut (.inl (List.ne_nil_of_length_pos hu))).2 hd
  have hnone : ∀ d, (u ++ w).take 1 ≠ [d] → u.take 1 ≠ [d] :=
    fun d hd => mt (take_one_cut (.inr hd)).1 hd
  rw [lexeme_at_slash] at h ⊢
  split_ifs at h with hline hblock
  · cases h
    have hu : 1 ≤ u.length := by
      cases u with
      | nil =>
        obtain ⟨w', rfl⟩ : ∃ w', w = '/' :: w' := by
          cases w with
          | nil => cases hline
          | cons d w =>
            cases hline
            exact ⟨w, rfl⟩
        simp at hn
      | cons d u => exact Nat.succ_le_succ (Nat.zero_le _)
    rw [if_pos (hmark '/' hline hu), takeWhile_cut hn]
  · split at h
    · next m hclosed =>
      cases h
      have hu : 1 ≤ u.length := by omega
      rw [List.drop_append_of_le_length hu] at hclosed
      have hclosed' : blockCommentLength? (u.drop 1 ++ []) = some m :=
        blockCommentLength?_append hclosed (by rw [List.length_drop]; omega)
      rw [List.append_nil] at hclosed'
      rw [if_neg (hnone '/' hline), if_pos (hmark '*' hblock hu), hclosed']
    · cases h
  · rw [if_neg (hnone '/' hline), if_neg (hnone '*' hblock)]
    exact h

theorem lexeme_angle_cut {line : Nat} {u w : List Char} {k : Token.Kind} {n : Nat}
    (h : lexeme line '<' (u ++ w) = .ok (k, n)) (hn : n ≤ u.length) (hk : k ≠ .operator) :
    lexeme line '<' u = .ok (k, n) := by
  obtain ⟨o, b, ho, hb, rfl, rfl⟩ | ⟨-, rfl, -⟩ := (lexeme_at_angle_iff line (u ++ w)).1 h
  · have hlength : b.2 ≤ ('<' :: u).length := by
      rw [List.length_cons]
      omega
    have hb' : heredoc line ('<' :: u ++ []) o = .ok b := heredoc_append (.inr rfl) hb hlength
    rw [List.append_nil] at hb'
    have ho' := heredocOpening?_cut ho hb hlength
    exact (lexeme_at_angle_iff line u).2 (.inl ⟨o, b, ho', hb', rfl, rfl⟩)
  · exact absurd rfl hk

theorem lexeme_equals_cut {line : Nat} {u w : List Char} {k : Token.Kind} {n : Nat}
    (h : lexeme line '=' (u ++ w) = .ok (k, n)) (hn : n ≤ u.length) :
    lexeme line '=' u = .ok (k, n) := by
  rw [lexeme_at_equals] at h ⊢
  by_cases hpair : (u ++ w).take 1 = ['='] ∨ (u ++ w).take 1 = ['>']
  · rw [if_pos hpair] at h
    cases h
    have hu : u ≠ [] := List.ne_nil_of_length_pos hn
    rw [if_pos (hpair.imp (take_one_cut (.inl hu)).2 (take_one_cut (.inl hu)).2)]
  · rw [if_neg hpair] at h
    rw [not_or] at hpair
    have hpair' : ¬(u.take 1 = ['='] ∨ u.take 1 = ['>']) := by
      rw [not_or]
      exact hpair.imp (mt (take_one_cut (.inr hpair.1)).1) (mt (take_one_cut (.inr hpair.2)).1)
    rw [if_neg hpair']
    exact h

/-- A token is the same where the text ends with it, unless it could open a heredoc. -/
theorem lexeme_cut {line : Nat} {c : Char} {u w : List Char} {k : Token.Kind} {n : Nat}
    (h : lexeme line c (u ++ w) = .ok (k, n)) (hn : n ≤ u.length)
    (hangle : k = .operator → c ≠ '<') : lexeme line c u = .ok (k, n) := by
  cases leading c with
  | newline => exact h
  | hash =>
    rw [lexeme_at_hash] at h ⊢
    cases h
    rw [takeWhile_cut hn]
  | slash => exact lexeme_slash_cut h hn
  | quote =>
    rw [lexeme_at_quote_iff] at h ⊢
    obtain ⟨q, hq, rfl, rfl⟩ := h
    have hq' : quotedString line (u ++ []) = .ok q := quotedString_append (.inr rfl) hq hn
    rw [List.append_nil] at hq'
    exact ⟨q, hq', rfl, rfl⟩
  | angle => exact lexeme_angle_cut h hn fun hk => hangle hk rfl
  | equals => exact lexeme_equals_cut h hn
  | digit hdigit =>
    rw [lexeme_at_digit line _ hdigit] at h ⊢
    cases h
    have hcut := numberAt_cut (u := c :: u) (w := w) (by
      rw [List.cons_append, List.length_cons]
      omega)
    rw [List.cons_append] at hcut
    rw [hcut]
  | name hdigit hname =>
    rw [lexeme_at_name line _ hdigit hname] at h ⊢
    cases h
    rw [takeWhile_cut hn]
  | mark hspecial hdigit hname => rwa [lexeme_at_mark line _ hspecial hdigit hname] at h ⊢

/-- Pieces that are read before a text are read without it, if none of them could open a heredoc. -/
theorem Lexed.cut {after : List Char} {ps : List Piece} (h : Lexed after ps)
    (hangle : .token .operator '<' [] ∉ ps) : Lexed [] ps := by
  induction h with
  | nil => exact .nil
  | gap blank _ ih => exact .gap blank (ih fun hmem => hangle (List.mem_cons_of_mem _ hmem))
  | @token k c cs ps solid read _ ih =>
    refine .token solid (fun line => ?_) (ih fun hmem => hangle (List.mem_cons_of_mem _ hmem))
    have hread := read line
    rw [← List.append_assoc] at hread
    rw [List.append_nil]
    refine lexeme_cut hread (by simp) ?_
    rintro rfl rfl
    have hlength : cs.length = 0 := by
      generalize hk : Token.Kind.operator = k at hread
      generalize hc : '<' = c at hread
      generalize hn : cs.length = n at hread
      cases begins_of_lexeme hread with
      | comparison head => exact absurd (hc.trans head) (by decide)
      | mark => rfl
      | _ => cases hk
    obtain rfl := List.length_eq_zero_iff.1 hlength
    exact hangle (List.mem_cons_self ..)

/-! ## Operators -/

/-- Tokens whose operators are all minus signs. -/
def OnlyMinus (ts : List Token) : Prop :=
  ∀ t ∈ ts, t.kind = .operator → t.text = "-"

theorem OnlyMinus.single {t : Token} (ht : t.kind ≠ .operator) : OnlyMinus [t] :=
  List.forall_mem_singleton.2 fun h => absurd h ht

theorem OnlyMinus.append {ts us : List Token} (ht : OnlyMinus ts) (hu : OnlyMinus us) :
    OnlyMinus (ts ++ us) :=
  List.forall_mem_append.2 ⟨ht, hu⟩

theorem OnlyMinus.cons {t : Token} {ts : List Token} (ht : t.kind ≠ .operator)
    (h : OnlyMinus ts) : OnlyMinus (t :: ts) :=
  List.forall_mem_cons.2 ⟨fun h => absurd h ht, h⟩

theorem Newlines.onlyMinus {ns : List Token} (h : Newlines ns) : OnlyMinus ns := by
  intro t ht hkind
  have hnewline := h t ht
  rw [Token.isNewline_of_kind (by simp [hkind])] at hnewline
  cases hnewline

mutual

theorem ValueTokens.onlyMinus {ts : List Token} {v : Value} (h : ValueTokens ts v) :
    OnlyMinus ts := by
  cases h with
  | atom atom => exact .single (by cases atom <;> simp_all)
  | negative _ minus blank value =>
    exact List.forall_mem_cons.2 ⟨fun _ => minus,
      blank.onlyMinus.append (.single (by simp [value]))⟩
  | list kind items => exact .cons (by simp [kind]) items.onlyMinus
  | object kind fields => exact .cons (by simp [kind]) fields.onlyMinus
termination_by ts.length
decreasing_by all_goals simp

theorem ItemTokens.onlyMinus {ts : List Token} {vs : List Value} (h : ItemTokens ts vs) :
    OnlyMinus ts := by
  cases h with
  | close blank kind => exact blank.onlyMinus.append (.single (by simp [kind]))
  | last blank value blank' kind =>
    exact blank.onlyMinus.append (value.onlyMinus.append
      (blank'.onlyMinus.append (.single (by simp [kind]))))
  | more blank value blank' kind others =>
    exact blank.onlyMinus.append (value.onlyMinus.append
      (blank'.onlyMinus.append (.cons (by simp [kind]) others.onlyMinus)))
termination_by ts.length
decreasing_by all_goals simp; omega

theorem FieldTokens.onlyMinus {ts : List Token} {fs : Fields} (h : FieldTokens ts fs) :
    OnlyMinus ts := by
  cases h with
  | close blank kind => exact blank.onlyMinus.append (.single (by simp [kind]))
  | last blank entry kind =>
    exact blank.onlyMinus.append (entry.onlyMinus.append (.single (by simp [kind])))
  | more blank entry kind others =>
    exact blank.onlyMinus.append (entry.onlyMinus.append
      (.cons (by rcases kind with kind | kind <;> simp [kind]) others.onlyMinus))
termination_by ts.length
decreasing_by all_goals simp; omega

theorem EntryTokens.onlyMinus {ts : List Token} {k : String} {v : Value}
    (h : EntryTokens ts k v) : OnlyMinus ts := by
  cases h with
  | mk key blank sign blank' value =>
    refine .cons (by cases key <;> simp_all) (blank.onlyMinus.append (.cons ?_
      (blank'.onlyMinus.append value.onlyMinus)))
    rcases sign with sign | sign <;> simp [sign]
termination_by ts.length
decreasing_by all_goals simp; omega

end

/-! ## Places -/

/-- A change of tokens that leaves what they say: their kinds and their texts. -/
def Faithful (f : Token → Token) : Prop :=
  ∀ t, (f t).kind = t.kind ∧ (f t).text = t.text

/-- A token with its place counted from another place and its line from another line. -/
def Token.back (place line : Nat) (t : Token) : Token :=
  { t with start := t.start - place, stop := t.stop - place, line := t.line - line }

/-- A token with its place and its line counted on from a place on a line. -/
def Token.forth (place line : Nat) (t : Token) : Token :=
  { t with start := place + t.start, stop := place + t.stop, line := line + t.line }

theorem faithful_back (place line : Nat) : Faithful (Token.back place line) := fun _ => ⟨rfl, rfl⟩

theorem faithful_forth (place line : Nat) : Faithful (Token.forth place line) := fun _ => ⟨rfl, rfl⟩

theorem back_forth (place line : Nat) (t : Token) : (t.forth place line).back place line = t := by
  simp [Token.back, Token.forth]

theorem placed_forth (place line place' line' : Nat) (ps : List Piece) :
    (placed place' line' ps).map (Token.forth place line) =
      placed (place + place') (line + line') ps := by
  induction ps generalizing place' line' with
  | nil => rfl
  | cons p ps ih =>
    cases p with
    | gap c =>
      have hline : lineAfter (line + line') c = line + lineAfter line' c := by
        unfold lineAfter
        split_ifs <;> rfl
      rw [placed, placed, hline, Nat.add_assoc]
      exact ih _ _
    | token k c cs =>
      have hline : lineAfterAll (line + line') (c :: cs) = line + lineAfterAll line' (c :: cs) := by
        rw [lineAfterAll_eq_count, lineAfterAll_eq_count, Nat.add_assoc]
      have hplace : place + place' + 1 + cs.length = place + (place' + 1 + cs.length) := by omega
      rw [placed, placed, hline, hplace, List.map_cons, ih]
      rfl

section Faithful
variable {f : Token → Token} (hf : Faithful f)
include hf

theorem isNewline_map (t : Token) : (f t).isNewline = t.isNewline := by
  rw [Token.isNewline, (hf t).1, ← Token.isNewline]

theorem isComment_map (t : Token) : (f t).isComment = t.isComment := by
  rw [Token.isComment, (hf t).1, ← Token.isComment]

theorem filter_uncommented_map (ts : List Token) :
    (ts.map f).filter (fun t => !t.isComment) = (ts.filter fun t => !t.isComment).map f := by
  rw [List.filter_map]
  congr 2
  funext t
  exact congrArg _ (isComment_map hf t)

theorem AtomToken.map {t : Token} {v : Value} (h : AtomToken t v) : AtomToken (f t) v := by
  obtain ⟨hkind, htext⟩ := hf t
  cases h with
  | quoted kind => exact .quoted (hkind.trans kind)
  | heredoc kind => exact .heredoc (hkind.trans kind)
  | number kind => exact .number (hkind.trans kind)
  | yes kind word => exact .yes (hkind.trans kind) (htext.trans word)
  | no kind word => exact .no (hkind.trans kind) (htext.trans word)
  | null kind word => exact .null (hkind.trans kind) (htext.trans word)

theorem KeyToken.map {t : Token} {k : String} (h : KeyToken t k) : KeyToken (f t) k := by
  obtain ⟨hkind, htext⟩ := hf t
  cases h with
  | name kind =>
    rw [← htext]
    exact .name (hkind.trans kind)
  | quoted kind => exact .quoted (hkind.trans kind)

theorem Newlines.map {ns : List Token} (h : Newlines ns) : Newlines (ns.map f) := by
  intro t ht
  obtain ⟨u, hu, rfl⟩ := List.mem_map.1 ht
  rw [isNewline_map hf]
  exact h u hu

mutual

/-- The grammar does not see where tokens stand. -/
theorem ValueTokens.map {ts : List Token} {v : Value} (h : ValueTokens ts v) :
    ValueTokens (ts.map f) v := by
  cases h with
  | atom atom => exact .atom (atom.map hf)
  | @negative t u ns n kind minus blank value =>
    rw [List.map_cons, List.map_append]
    exact .negative ((hf t).1.trans kind) ((hf t).2.trans minus) (blank.map hf)
      ((hf u).1.trans value)
  | @list t us vs kind items => exact .list ((hf t).1.trans kind) items.map
  | @object t us fs kind fields distinct =>
    exact .object ((hf t).1.trans kind) fields.map distinct
termination_by ts.length
decreasing_by all_goals simp

theorem ItemTokens.map {ts : List Token} {vs : List Value} (h : ItemTokens ts vs) :
    ItemTokens (ts.map f) vs := by
  cases h with
  | @close ns t blank kind =>
    rw [List.map_append]
    exact .close (blank.map hf) ((hf t).1.trans kind)
  | @last ns us ms t v blank value blank' kind =>
    simp only [List.map_append, List.map_cons, List.map_nil]
    exact .last (blank.map hf) value.map (blank'.map hf) ((hf t).1.trans kind)
  | @more ns us ms ws t v vs blank value blank' kind others =>
    simp only [List.map_append, List.map_cons]
    exact .more (blank.map hf) value.map (blank'.map hf) ((hf t).1.trans kind) others.map
termination_by ts.length
decreasing_by all_goals simp; omega

theorem FieldTokens.map {ts : List Token} {fs : Fields} (h : FieldTokens ts fs) :
    FieldTokens (ts.map f) fs := by
  cases h with
  | @close ns t blank kind =>
    rw [List.map_append]
    exact .close (blank.map hf) ((hf t).1.trans kind)
  | @last ns us t k v blank entry kind =>
    simp only [List.map_append, List.map_cons, List.map_nil]
    exact .last (blank.map hf) entry.map ((hf t).1.trans kind)
  | @more ns us ws t k v fs blank entry kind others =>
    simp only [List.map_append, List.map_cons]
    exact .more (blank.map hf) entry.map (by rwa [(hf t).1]) others.map
termination_by ts.length
decreasing_by all_goals simp; omega

theorem EntryTokens.map {ts : List Token} {k : String} {v : Value} (h : EntryTokens ts k v) :
    EntryTokens (ts.map f) k v := by
  cases h with
  | @mk t s ns ms us k v key blank sign blank' value =>
    simp only [List.map_append, List.map_cons]
    exact .mk (key.map hf) (blank.map hf) (by rwa [(hf s).1]) (blank'.map hf) value.map
termination_by ts.length
decreasing_by all_goals simp; omega

end

end Faithful

end InstanceInventory.Literal
