import InstanceInventory.Proofs.Literal.Excerpt

/-! # Tokens that span lines

* `heredoc_followed`: a heredoc ends at the end of a line.
* `template_of_newline`: a quoted string that spans lines holds a template.
* `spans_of_lexeme`: a token that spans lines is a comment, a string with a template or a heredoc.
-/

namespace InstanceInventory.Literal
set_option autoImplicit false
variable {line opened skip : Nat} {c : Char} {cs after : List Char} {frames : List Frame}
  {read q : QuotedString}

/-! ## Heredocs -/

/-- After the line that closes a heredoc stands a newline, or nothing. -/
theorem heredocBody?_followed {marker piece last : List Char} {ls : List (List Char)}
    (h : heredocBody? marker (Text.splitFrom (· == '\n') piece cs) = some (ls, last)) :
    ∀ d ∈ ((piece.reverse ++ cs).drop (closedLength ls + last.length)).head?, d = '\n' := by
  induction cs generalizing piece ls with
  | nil =>
    rw [Text.splitFrom, heredocBody?] at h
    split_ifs at h
    · cases h
      simp [closedLength]
    · simp [heredocBody?] at h
  | cons c cs ih =>
    rw [Text.splitFrom] at h
    split_ifs at h with hc
    · rw [heredocBody?] at h
      split_ifs at h
      · cases h
        simpa [closedLength] using hc
      · obtain ⟨b, hb, he⟩ := Option.map_eq_some_iff.1 h
        cases he
        have hlength : closedLength (piece.reverse :: b.1) + b.2.length =
            (piece.reverse ++ [c]).length + (closedLength b.1 + b.2.length) := by
          simp only [closedLength, List.length_append, List.length_singleton]
          omega
        have happend : piece.reverse ++ c :: cs = piece.reverse ++ [c] ++ cs := by simp
        rw [hlength, happend, List.drop_length_add_append]
        exact ih hb
    · have h := ih h
      rwa [List.reverse_cons, List.append_assoc] at h

/-- A heredoc ends at the end of a line. -/
theorem heredoc_followed {o : HeredocOpening} {b : List Char × Nat} (h : heredoc line cs o = .ok b) :
    ∀ d ∈ (cs.drop b.2).head?, d = '\n' := by
  unfold heredoc at h
  dsimp only at h
  split at h
  · cases h
  · next ls last hbody =>
    cases h
    split at hbody
    · cases hbody
    · next d rest hdrop =>
      have hfollowed := heredocBody?_followed hbody
      have hrest : cs.drop (o.length + 1 + closedLength ls + last.length) =
          rest.drop (closedLength ls + last.length) := by
        have hone : cs.drop (o.length + 1) = rest := by
          rw [← List.drop_drop, hdrop]
          rfl
        rw [Nat.add_assoc, ← List.drop_drop, hone]
      rw [hrest]
      exact hfollowed

/-! ## Quoted strings -/

/-- What an escape takes are letters of escapes, a quote or backslash, or hexadecimal digits. -/
theorem mem_escape {e : Char × Nat} (h : escape line cs = .ok e) :
    ∀ d ∈ cs.take e.2, d ∈ ['n', 't', 'r', '"', '\\', 'u', 'U'] ∨ isHexDigit d = true := by
  cases cs with
  | nil => cases h
  | cons c cs =>
    have hpoint : ∀ width, codePointEscape line width cs = .ok e →
        c ∈ ['n', 't', 'r', '"', '\\', 'u', 'U'] →
        ∀ d ∈ (c :: cs).take e.2,
          d ∈ ['n', 't', 'r', '"', '\\', 'u', 'U'] ∨ isHexDigit d = true := by
      intro width h hc
      unfold codePointEscape at h
      dsimp only at h
      split_ifs at h with hdigits
      cases h
      rw [List.take_succ_cons, List.forall_mem_cons]
      exact ⟨.inl hc, fun d hd => .inr (List.all_eq_true.1 hdigits.2 d hd)⟩
    have hone : ∀ {d : Char}, (.ok (d, 1) : Except Fault (Char × Nat)) = .ok e →
        c ∈ ['n', 't', 'r', '"', '\\', 'u', 'U'] →
        ∀ d ∈ (c :: cs).take e.2,
          d ∈ ['n', 't', 'r', '"', '\\', 'u', 'U'] ∨ isHexDigit d = true := by
      intro d h hc
      cases h
      simpa using Or.inl hc
    rw [escape] at h
    split_ifs at h with h₁ h₂ h₃ h₄ h₅ h₆ h₇
    all_goals subst c
    · exact hone h (by decide)
    · exact hone h (by decide)
    · exact hone h (by decide)
    · exact hone h (by decide)
    · exact hone h (by decide)
    · exact hpoint 4 h (by decide)
    · exact hpoint 8 h (by decide)

theorem newline_not_mem_of_escape {e : Char × Nat} (h : escape line cs = .ok e) :
    '\n' ∉ cs.take e.2 := by
  intro hmem
  rcases mem_escape h _ hmem with hletter | hdigit
  · exact absurd hletter (by decide)
  · exact absurd hdigit (by decide)

/-- Neither a character directly inside a string nor what it takes along is a newline. -/
theorem newline_not_mem_of_stringStep {close : QuoteStep} {frames' : List Frame}
    {decoded : Option Char} {rest : List Char}
    (h : stringStep opened line frames close c rest = .ok (.next frames' decoded skip))
    (hclose : close = .done) : c ≠ '\n' ∧ '\n' ∉ rest.take skip := by
  subst hclose
  unfold stringStep at h
  split_ifs at h with hnewline hquote hslash hmark htwo hone
  · cases h
  · refine ⟨hnewline, ?_⟩
    cases he : escape line rest with
    | error f =>
      rw [he] at h
      cases h
    | ok e =>
      rw [he] at h
      cases h
      exact newline_not_mem_of_escape he
  · cases h
    refine ⟨hnewline, fun hmem => ?_⟩
    have htake : rest.take 1 = [c] := by
      have h := congrArg (List.take 1) htwo
      rwa [List.take_take] at h
    rw [htake, List.mem_singleton] at hmem
    exact hnewline hmem.symm
  · cases h
    exact ⟨hnewline, by rw [hone]; decide⟩
  · cases h
    exact ⟨hnewline, List.not_mem_nil⟩
  · cases h
    exact ⟨hnewline, List.not_mem_nil⟩

theorem template_of_quotedFrom (h : quotedFrom opened line frames read skip cs = .ok q)
    (htemplate : read.template = true) : q.template = true := by
  have hpush : ∀ inside c decoded, (read.push inside c decoded).template = true :=
    fun _ _ _ => by simp [QuotedString.push, htemplate]
  induction cs generalizing line frames read skip with
  | nil => cases h
  | cons c cs ih =>
    have hnext : ∀ {line frames inside decoded skip},
        quotedFrom opened line frames (read.push inside c decoded) skip cs = .ok q →
          q.template = true :=
      fun h => ih h (hpush _ _ _) fun _ _ _ => by simp [QuotedString.push, htemplate]
    cases skip with
    | succ skip => exact hnext h
    | zero =>
      rw [quotedFrom] at h
      split at h
      · cases h
      · cases h
        exact htemplate
      · exact hnext h

/-- Up to its closing quote, a string without a template has no newline. -/
theorem newline_not_mem_of_quotedFrom (h : quotedFrom opened line frames read skip cs = .ok q)
    (hplain : q.template = false) (hskip : '\n' ∉ cs.take skip) :
    '\n' ∉ cs.take (q.length - read.length) := by
  induction cs generalizing line frames read skip with
  | nil => cases h
  | cons c cs ih =>
    have hstep : ∀ {line frames inside decoded skip},
        quotedFrom opened line frames (read.push inside c decoded) skip cs = .ok q → c ≠ '\n' →
          '\n' ∉ cs.take skip → '\n' ∉ (c :: cs).take (q.length - read.length) := by
      intro line frames inside decoded skip h hc hskip hmem
      have hrest := ih h hskip
      cases hn : q.length - read.length with
      | zero =>
        rw [hn] at hmem
        cases hmem
      | succ n =>
        have hlength : q.length - (read.push inside c decoded).length = n := by
          simp only [QuotedString.push]
          omega
        rw [hlength] at hrest
        rw [hn, List.take_succ_cons, List.mem_cons] at hmem
        exact hmem.elim (fun heq => hc heq.symm) hrest
    cases skip with
    | succ skip =>
      rw [List.take_succ_cons, List.mem_cons, not_or] at hskip
      exact hstep h (Ne.symm hskip.1) hskip.2
    | zero =>
      rw [quotedFrom] at h
      split at h
      · cases h
      · next hdone =>
        cases h
        have hc : c ≠ '\n' := by
          rintro rfl
          cases frames with
          | nil => cases hdone
          | cons frame frames => cases frame <;> cases hdone
        simpa using hc.symm
      · next frames' decoded skip hnext =>
        cases frames with
        | nil =>
          obtain ⟨hc, hskip⟩ := newline_not_mem_of_stringStep hnext rfl
          exact hstep h hc hskip
        | cons frame frames =>
          have htemplate := template_of_quotedFrom h (by simp [QuotedString.push])
          rw [hplain] at htemplate
          cases htemplate

/-- A quoted string that spans lines holds a template. -/
theorem template_of_newline (h : quotedString line (cs ++ after) = .ok q) (hlength : q.length = cs.length)
    (hmem : '\n' ∈ cs) : q.template = true := by
  by_contra hplain
  have hnone := newline_not_mem_of_quotedFrom h (by simpa using hplain) List.not_mem_nil
  rw [Nat.sub_zero, hlength, List.take_left] at hnone
  exact hnone hmem

/-! ## Tokens -/

/-- A token that goes on after a newline is a comment, a string with a template or a heredoc, which
ends at the end of a line. -/
theorem spans_of_lexeme {k : Token.Kind} (h : lexeme line c (cs ++ after) = .ok (k, cs.length))
    (hmem : '\n' ∈ cs) :
    k = .comment ∨ (∃ s, k = .string s true) ∨
      (∃ s, k = .heredoc s) ∧ ∀ d ∈ after.head?, d = '\n' := by
  have hne : cs.length ≠ 0 := fun hnil => by
    rw [List.length_eq_zero_iff.1 hnil] at hmem
    cases hmem
  generalize hn : cs.length = n at h hne
  cases begins_of_lexeme h with
  | newline | equals | mark => exact absurd rfl hne
  | lineComment => exact .inl rfl
  | blockComment => exact .inl rfl
  | quoted head read =>
    rw [template_of_newline read hn.symm hmem]
    exact .inr (.inl ⟨_, rfl⟩)
  | @heredoc o b opening read =>
    have hlength := (heredoc_length read).1
    have hfollowed := heredoc_followed read
    rw [show b.2 = cs.length + 1 by omega, List.drop_succ_cons, List.drop_left] at hfollowed
    exact .inr (.inr ⟨⟨_, rfl⟩, hfollowed⟩)
  | number head =>
    -- A number is read alike where a newline follows it.
    obtain ⟨x, y, rfl⟩ := List.append_of_mem hmem
    have hnumber := numberAt_barrier barrier_newline (c :: x) (y ++ after)
    have hlength := numberAt_length (c :: x)
    rw [← hnumber] at hlength
    simp only [List.cons_append, List.append_assoc, List.length_cons, List.length_append] at hn hlength
    omega
  | name head => exact absurd (takeWhile_eq_of_length hn _ hmem) (by decide)
  | comparison head mark =>
    obtain ⟨d, rfl⟩ := List.length_eq_one_iff.1 hn
    rw [← List.mem_singleton.1 hmem] at mark
    simp at mark

end InstanceInventory.Literal
