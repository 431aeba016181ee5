import InstanceInventory.Proofs.Literal.Multiline
import InstanceInventory.Proofs.Text.Trimmed

/-! # How a token ends

* `quotedFrom_last`, `heredocBody?_last`: a quoted string ends with a quote, a heredoc with a line that
  holds its marker.
* `solid_of_lexeme`: the last line of a token is not blank, unless the token is a newline or an
  operator.
* `ends_of_lexeme`: a token other than a newline does not end with one.
-/

namespace InstanceInventory.Literal
set_option autoImplicit false

/-! ## The last line of a token -/

theorem eq_quote_of_stringStep {opened line : Nat} {frames : List Frame} {close : QuoteStep}
    {c : Char} {rest : List Char} (h : stringStep opened line frames close c rest = .ok .done) :
    c = '"' := by
  unfold stringStep at h
  split_ifs at h with hnewline hquote hslash <;> try cases h
  · exact hquote
  · cases he : escape line rest <;> rw [he] at h <;> cases h

theorem eq_quote_of_quoteStep {opened line : Nat} {frames : List Frame} {c : Char}
    {rest : List Char} (h : quoteStep opened line frames c rest = .ok .done) : c = '"' := by
  unfold quoteStep at h
  split at h
  · exact eq_quote_of_stringStep h
  · exact eq_quote_of_stringStep h
  · unfold templateStep at h
    split_ifs at h <;> try cases h
    split at h <;> cases h

/-- A quoted string ends with a quote. -/
theorem quotedFrom_last {opened line : Nat} {frames : List Frame} {read q : QuotedString}
    {skip : Nat} {cs : List Char} (h : quotedFrom opened line frames read skip cs = .ok q) :
    ∃ x y, cs = x ++ '"' :: y ∧ q.length = read.length + x.length + 1 := by
  have hpush : ∀ inside c decoded, (read.push inside c decoded).length = read.length + 1 :=
    fun _ _ _ => rfl
  induction cs generalizing line frames read skip with
  | nil => cases h
  | cons c cs ih =>
    have hstep : ∀ {line frames inside decoded skip}, quotedFrom opened line frames
        (read.push inside c decoded) skip cs = .ok q →
        ∃ x y, c :: cs = x ++ '"' :: y ∧ q.length = read.length + x.length + 1 := by
      intro line frames inside decoded skip h
      obtain ⟨x, y, rfl, hlength⟩ := ih h fun _ _ _ => rfl
      refine ⟨c :: x, y, rfl, ?_⟩
      rw [hlength, hpush, List.length_cons]
      omega
    cases skip with
    | succ skip => exact hstep h
    | zero =>
      rw [quotedFrom] at h
      split at h
      · cases h
      · next hdone =>
        cases h
        exact ⟨[], cs, by rw [eq_quote_of_quoteStep hdone]; rfl, rfl⟩
      · exact hstep h

/-- The line that closes a heredoc holds its marker. -/
theorem heredocBody?_last {marker piece cs last : List Char} {ls : List (List Char)}
    (h : heredocBody? marker (Text.splitFrom (· == '\n') piece cs) = some (ls, last))
    (hpiece : '\n' ∉ piece) :
    Text.trimChars last = marker ∧ '\n' ∉ last ∧
      ∃ x, (piece.reverse ++ cs).take (closedLength ls + last.length) = x ++ last := by
  induction cs generalizing piece ls with
  | nil =>
    rw [Text.splitFrom, heredocBody?] at h
    split_ifs at h with hmarker
    · cases h
      refine ⟨hmarker, by simpa using hpiece, [], ?_⟩
      rw [List.append_nil, closedLength, Nat.zero_add, List.take_length, List.nil_append]
    · simp [heredocBody?] at h
  | cons c cs ih =>
    rw [Text.splitFrom] at h
    split_ifs at h with hc
    · rw [heredocBody?] at h
      split_ifs at h with hmarker
      · cases h
        refine ⟨hmarker, by simpa using hpiece, [], ?_⟩
        rw [closedLength, Nat.zero_add, List.take_left, List.nil_append]
      · obtain ⟨b, hb, he⟩ := Option.map_eq_some_iff.1 h
        cases he
        obtain ⟨htrim, hlast, x, hx⟩ := ih hb List.not_mem_nil
        refine ⟨htrim, hlast, piece.reverse ++ c :: x, ?_⟩
        rw [closedLength, List.take_append, List.take_of_length_le (by simp; omega)]
        have hlength : piece.reverse.length + 1 + closedLength b.1 + b.2.length -
            piece.reverse.length = closedLength b.1 + b.2.length + 1 := by omega
        rw [hlength, List.take_succ_cons]
        simpa using hx
    · have hc' : '\n' ∉ c :: piece := by
        simp only [beq_iff_eq] at hc
        simp [Ne.symm hc, hpiece]
      obtain ⟨htrim, hlast, x, hx⟩ := ih h hc'
      exact ⟨htrim, hlast, x, by simpa using hx⟩

theorem solid_append {cs ds : List Char} (h : Solid ds) : Solid (cs ++ ds) := by
  obtain ⟨x, d, y, rfl, hd, hy⟩ := h
  exact ⟨cs ++ x, d, y, by simp, hd, hy⟩

theorem solid_heredoc {line : Nat} {cs : List Char} {o : HeredocOpening} {b : List Char × Nat}
    (ho : heredocOpening? cs = some o) (h : heredoc line cs o = .ok b) : Solid (cs.take b.2) := by
  have hmarker : o.marker ≠ [] := by
    unfold heredocOpening? at ho
    split at ho
    · dsimp only at ho
      split_ifs at ho with hflush hempty hempty <;> obtain ⟨n, -, rfl⟩ := Option.map_eq_some_iff.1 ho
      · simpa using hempty
      · simpa using hempty
    · cases ho
  unfold heredoc at h
  dsimp only at h
  split at h
  · cases h
  · next ls last hbody =>
    cases h
    split at hbody
    · cases hbody
    · next d rest hdrop =>
      obtain ⟨htrim, hlast, x, hx⟩ := heredocBody?_last hbody List.not_mem_nil
      obtain ⟨c, hc, hblank⟩ := Text.exists_of_trimChars (htrim ▸ hmarker)
      obtain ⟨y, z, rfl⟩ := List.append_of_mem hc
      have htake : cs.take (o.length + 1 + closedLength ls + (y ++ c :: z).length) =
          cs.take o.length ++ d :: (x ++ (y ++ c :: z)) := by
        rw [Nat.add_assoc, Nat.add_assoc, List.take_add, hdrop, Nat.add_comm 1, List.take_succ_cons]
        exact congrArg (fun ws => _ ++ d :: ws) hx
      rw [htake]
      refine ⟨cs.take o.length ++ d :: (x ++ y), c, z, by simp, hblank, fun hmem => hlast ?_⟩
      exact List.mem_append_right _ (List.mem_cons_of_mem c hmem)

theorem isBlank_of_punctuation? {c : Char} {k : Token.Kind} (h : punctuation? c = some k) :
    Text.isBlank c = false := by
  unfold punctuation? at h
  split_ifs at h with h1 h2 h3 h4 h5 h6 h7 h8 <;> subst c <;> decide

/-- The last line of a token is not blank, unless the token is a newline or an operator. -/
theorem solid_of_lexeme {line : Nat} {c : Char} {cs after : List Char} {k : Token.Kind}
    (h : lexeme line c (cs ++ after) = .ok (k, cs.length)) (hnewline : k ≠ .newline)
    (hoperator : k ≠ .operator) : Solid (c :: cs) := by
  by_cases hcomment : k = .comment
  · subst hcomment
    exact (commentChars_of_lexeme h).solid
  have hread := h
  generalize hn : cs.length = n at h
  cases begins_of_lexeme h with
  | newline => exact absurd rfl hnewline
  | lineComment => exact absurd rfl hcomment
  | blockComment => exact absurd rfl hcomment
  | quoted head read =>
    obtain ⟨x, y, hsplit, hlength⟩ := quotedFrom_last read
    have e : cs ++ after = (x ++ ['"']) ++ y := by simpa using hsplit
    have hcs : cs.length = (x ++ ['"']).length := by
      rw [hn, hlength, Nat.zero_add, List.length_append, List.length_singleton]
    obtain ⟨rfl, -⟩ := List.append_inj e hcs
    have hsolid : Solid ((c :: x) ++ ['"']) := solid_append (solid_singleton (by decide))
    exact hsolid
  | @heredoc o b opening read =>
    have hlength := (heredoc_length read).1
    have hsolid := solid_heredoc opening read
    rwa [show b.2 = cs.length + 1 by omega, List.take_succ_cons, List.take_left] at hsolid
  | number head =>
    refine ⟨[], c, cs, rfl, ?_, fun hmem => by simpa using spans_of_lexeme hread hmem⟩
    rw [Bool.eq_false_iff]
    intro hblank
    rw [isDecimalDigit_of_isBlank hblank] at head
    cases head
  | name head =>
    exact ⟨[], c, cs, rfl, isBlank_of_isNameStart head,
      fun hmem => by simpa using spans_of_lexeme hread hmem⟩
  | comparison => exact absurd rfl hoperator
  | equals head =>
    obtain rfl := List.length_eq_zero_iff.1 hn
    rw [head]
    exact solid_singleton (by decide)
  | mark =>
    obtain rfl := List.length_eq_zero_iff.1 hn
    cases hmark : punctuation? c with
    | none => exact absurd (by rw [hmark]; rfl) hoperator
    | some k => exact solid_singleton (isBlank_of_punctuation? hmark)

theorem newline_not_mem_of_operator {line : Nat} {c : Char} {cs after : List Char}
    (h : lexeme line c (cs ++ after) = .ok (.operator, cs.length)) : '\n' ∉ c :: cs := by
  rw [List.mem_cons, not_or]
  refine ⟨?_, fun hmem => by simpa using spans_of_lexeme h hmem⟩
  rintro rfl
  rw [lexeme_newline] at h
  cases h

/-- A token other than a newline does not end with one. -/
theorem ends_of_lexeme {line : Nat} {c : Char} {cs after : List Char} {k : Token.Kind}
    (h : lexeme line c (cs ++ after) = .ok (k, cs.length)) (hk : k ≠ .newline) (ds : List Char) :
    c :: cs ≠ ds ++ ['\n'] := by
  intro heq
  by_cases hoperator : k = .operator
  · subst hoperator
    exact newline_not_mem_of_operator h (by simp [heq])
  · obtain ⟨x, d, y, hsplit, hd, hy⟩ := solid_of_lexeme h hk hoperator
    rw [heq] at hsplit
    -- The last character is the one that is not blank, or it stands after it.
    rcases List.eq_nil_or_concat' y with rfl | ⟨y, e, rfl⟩
    · obtain ⟨-, hlast⟩ := List.append_inj' hsplit rfl
      cases hlast
      exact absurd hd (by decide)
    · have hsplit' : ds ++ ['\n'] = (x ++ d :: y) ++ [e] := by simpa using hsplit
      obtain ⟨-, hlast⟩ := List.append_inj' hsplit' rfl
      cases hlast
      exact hy (by simp)

end InstanceInventory.Literal
