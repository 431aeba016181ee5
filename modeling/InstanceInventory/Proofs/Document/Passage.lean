import InstanceInventory.Proofs.Document.Arrangement
import InstanceInventory.Proofs.Document.Descent
import InstanceInventory.Proofs.Literal.Cutoff
import InstanceInventory.Proofs.Literal.Ending

/-! # Passages of a text

* `tokenize_passage`: the text between two places, neither of which lies inside a token, has the
  tokens between them.
* `lineStart_of_firstOnLine`: where the line of a token begins that is first on it.
-/

namespace InstanceInventory.Document
set_option autoImplicit false
open Literal
variable {text : String} {cs : List Char} {before mid after ts us : List Token} {t u : Token} {p q : Nat}

/-! ## Cutting between tokens -/

/-- Pieces can be split at a place that lies in no token. -/
theorem exists_pieces_at {pre : List Char} {ps : List Piece} (hstart : pre.length ≤ p)
    (hstop : p ≤ (pre ++ charsOf ps).length)
    (h : ∀ t ∈ tokensAfter pre ps, t.stop ≤ p ∨ p ≤ t.start) :
    ∃ qs rs, ps = qs ++ rs ∧ (pre ++ charsOf qs).length = p := by
  induction ps generalizing pre with
  | nil => exact ⟨[], [], rfl, by simp only [charsOf_nil, List.append_nil] at hstop ⊢; omega⟩
  | cons piece ps ih =>
    rcases Nat.eq_or_lt_of_le hstart with heq | hlt
    · exact ⟨[], piece :: ps, rfl, by simpa using heq⟩
    cases piece with
    | gap c =>
      have e : Piece.gap c :: ps = [c].map .gap ++ ps := rfl
      rw [e, tokensAfter_append, tokensAfter_gaps, List.nil_append, charsOf_gaps] at h
      obtain ⟨qs, rs, rfl, hqs⟩ := ih (by simpa using Nat.succ_le_of_lt hlt) (by simpa using hstop) h
      exact ⟨.gap c :: qs, rs, rfl, by simpa using hqs⟩
    | token k c cs =>
      rw [tokensAfter_cons, List.forall_mem_cons] at h
      have hwithin : (pre ++ c :: cs).length ≤ p := by
        have := h.1
        simp only [tokenAfter, List.length_append, List.length_cons] at this ⊢
        omega
      obtain ⟨qs, rs, rfl, hqs⟩ := ih hwithin (by simpa using hstop) h.2
      exact ⟨.token k c cs :: qs, rs, rfl, by simpa using hqs⟩

/-- The tokens between two places. -/
theorem filter_between (h : Standing cs (before ++ (mid ++ after)))
    (hbefore : ∀ t ∈ before, t.stop ≤ p) (hmid : ∀ t ∈ mid, p ≤ t.start ∧ t.stop ≤ q)
    (hafter : ∀ t ∈ after, q ≤ t.start) :
    (before ++ (mid ++ after)).filter (fun t => p ≤ t.start && t.start < q) = mid := by
  have hnone : before.filter (fun t => p ≤ t.start && t.start < q) = [] := by
    refine filter_eq_nil_of fun t ht => ?_
    have := (h.extent t (by simp [ht])).1
    have := hbefore t ht
    simp
    omega
  have hall : mid.filter (fun t => p ≤ t.start && t.start < q) = mid := by
    refine List.filter_eq_self.2 fun t ht => ?_
    have := (h.extent t (by simp [ht])).1
    have := hmid t ht
    simp
    omega
  have hnone' : after.filter (fun t => p ≤ t.start && t.start < q) = [] := by
    refine filter_eq_nil_of fun t ht => ?_
    have := hafter t ht
    simp
    omega
  rw [List.filter_append, List.filter_append, hnone, hall, hnone', List.append_nil, List.nil_append]

/-- Between two places that lie in no token stand pieces with the tokens between the places. -/
theorem exists_passage (h : tokenize text = .ok (before ++ (mid ++ after))) (hpq : p ≤ q)
    (hq : q ≤ text.toList.length) (hbefore : ∀ t ∈ before, t.stop ≤ p)
    (hmid : ∀ t ∈ mid, p ≤ t.start ∧ t.stop ≤ q) (hafter : ∀ t ∈ after, q ≤ t.start) :
    ∃ (front : List Char) (ps : List Piece) (back : List Char), front.length = p ∧
      slice text.toList p q = charsOf ps ∧ Lexed back ps ∧ tokensAfter front ps = mid := by
  have hstanding := standing_of_tokenize h
  obtain ⟨all, hchars, hlexed, htokens⟩ := exists_pieces h
  replace htokens : tokensAfter [] all = before ++ (mid ++ after) := htokens
  have hapart : ∀ t ∈ tokensAfter [] all, (t.stop ≤ p ∨ p ≤ t.start) ∧ (t.stop ≤ q ∨ q ≤ t.start) := by
    intro t ht
    rw [htokens, List.mem_append, List.mem_append] at ht
    rcases ht with ht | ht | ht
    · have := hbefore t ht
      omega
    · have := hmid t ht
      omega
    · have := hafter t ht
      omega
  rw [← hchars] at hq ⊢
  obtain ⟨front, rest, rfl, hfront⟩ : ∃ front rest, all = front ++ rest ∧
      ([] ++ charsOf front).length = p :=
    exists_pieces_at (Nat.zero_le p) (Nat.le_trans hpq hq) fun t ht => (hapart t ht).1
  rw [List.nil_append] at hfront
  rw [tokensAfter_append, List.nil_append] at htokens hapart
  obtain ⟨ps, back, rfl, hps⟩ : ∃ ps back, rest = ps ++ back ∧
      (charsOf front ++ charsOf ps).length = q :=
    exists_pieces_at (hfront ▸ hpq) (by simpa using hq) fun t ht =>
      (hapart t (List.mem_append_right _ ht)).2
  refine ⟨charsOf front, ps, charsOf back ++ [], hfront, ?_, hlexed.right.left, ?_⟩
  · have hlength : (charsOf ps).length = q - p := by
      rw [List.length_append] at hps
      omega
    simp only [charsOf_append, slice]
    rw [← hfront, List.drop_left, hfront, ← hlength, List.take_left]
  · rw [tokensAfter_append] at htokens
    have hbetween := filter_between hstanding hbefore hmid hafter
    rw [← htokens, filter_between (htokens ▸ hstanding)] at hbetween
    · exact hbetween
    · intro t ht
      rw [← hfront]
      simpa using (mem_tokensAfter ht).2.2
    · intro t ht
      rw [← hfront, ← hps]
      have := mem_tokensAfter ht
      exact ⟨this.1, this.2.2⟩
    · intro t ht
      rw [← hps]
      exact (mem_tokensAfter ht).1

/-- The text between two places that lie in no token has the tokens between the places, if none of
them could open a heredoc. -/
theorem tokenize_passage (h : tokenize text = .ok (before ++ (mid ++ after))) (hpq : p ≤ q)
    (hq : q ≤ text.toList.length) (hbefore : ∀ t ∈ before, t.stop ≤ p)
    (hmid : ∀ t ∈ mid, p ≤ t.start ∧ t.stop ≤ q) (hafter : ∀ t ∈ after, q ≤ t.start)
    (hminus : OnlyMinus mid) :
    ∃ line, tokenize (String.ofList (slice text.toList p q)) = .ok (mid.map (Token.back p line)) := by
  obtain ⟨front, ps, back, rfl, hslice, hlexed, rfl⟩ :=
    exists_passage h hpq hq hbefore hmid hafter
  refine ⟨lineAfterAll 0 front, ?_⟩
  have hcut : .token .operator '<' [] ∉ ps := by
    intro hmem
    obtain ⟨qs, rs, rfl⟩ := List.append_of_mem hmem
    have htext := hminus (tokenAfter (front ++ charsOf qs) .operator '<' []) (by
      rw [tokensAfter_append, tokensAfter_cons]
      simp) rfl
    exact absurd htext (show String.ofList ['<'] ≠ "-" by decide)
  have hforth : tokensAfter front ps = (placed 0 0 ps).map
      (Token.forth front.length (lineAfterAll 0 front)) := (placed_forth _ _ 0 0 ps).symm
  have hback : Token.back front.length (lineAfterAll 0 front) ∘
      Token.forth front.length (lineAfterAll 0 front) = id := funext (back_forth _ _)
  rw [hslice, tokenize_charsOf (hlexed.cut hcut), hforth, List.map_map, hback, List.map_id]

/-! ## What stands before a token -/

/-- The line of a token that is first on it begins where the token before ends. -/
theorem lineStart_of_firstOnLine (h : tokenize text = .ok (before ++ t :: u :: after))
    (ht : t.kind ≠ .operator) (hfirst : firstOnLine text.toList u.start = true) :
    lineStart text.toList u.start = t.stop := by
  obtain ⟨ps, hchars, hlexed, htokens⟩ := exists_pieces h
  replace htokens : tokensAfter [] ps = before ++ t :: u :: after := htokens
  obtain ⟨front, rest, rfl, -, hrest⟩ := exists_split_pieces htokens
  obtain ⟨gaps, k, c, cs, rest, rfl, -, rfl, htoken, hlexed', hrest⟩ :=
    exists_token hlexed.right hrest
  obtain ⟨gaps', l, d, ds, rest, rfl, hgaps', rfl, -, -, -⟩ := exists_token hlexed' hrest
  rw [List.nil_append] at *
  let pre := charsOf front ++ gaps
  let place := pre ++ c :: cs ++ gaps'
  have hplace : text.toList = place ++ d :: (ds ++ charsOf rest) := by
    rw [← hchars]
    simp [place, pre]
  have hstart : (tokenAfter place l d ds).start = place.length := rfl
  rw [hplace, hstart, firstOnLine_append] at hfirst
  rw [hplace, hstart, lineStart_append]
  by_cases hk : k = .newline
  · subst hk
    obtain ⟨rfl, rfl⟩ := eq_newline_of_lexed htoken
    have hline : Text.lastLine place = gaps'.reverse := by
      rw [Text.lastLine_append (newline_not_mem_gaps hgaps'), Text.lastLine_append_newline, List.append_nil]
    rw [hline]
    simp only [place, pre, tokenAfter, List.length_append, List.length_cons, List.length_nil,
      List.length_reverse]
    omega
  · -- A token that is not blank stands on the line, against the assumption.
    have hsolid : Solid (c :: cs) := solid_of_lexeme (lexeme_of_lexed htoken) hk ht
    have hstale : Stale place := (stale_append_solid pre hsolid).append (newline_not_mem_gaps hgaps')
    rw [Stale, hfirst] at hstale
    cases hstale

end InstanceInventory.Document
