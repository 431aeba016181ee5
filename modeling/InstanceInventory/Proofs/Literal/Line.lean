import InstanceInventory.Proofs.Literal.Lookahead
import InstanceInventory.Proofs.Literal.Rendering
import InstanceInventory.Proofs.Text.Lines

/-! # Lines that are read whole

* `isCalm`: characters outside strings and comments at which no token can fail.
* `lineReads`: a check that a line can be split into tokens, whatever stands on the next lines.
* `reads_of_lineReads`: a line that passes the check is read before any text on further lines.
* `reads_closed`: lines that pass the check are read one after another.
-/

namespace InstanceInventory.Literal
set_option autoImplicit false

/-! ## Calm characters -/

/-- A character that begins neither a comment, a string nor a heredoc, and ends no line. -/
def isCalm (c : Char) : Bool :=
  c != '\n' && c != '#' && c != '/' && c != '"' && c != '<'

/-- A token at a calm character ends before a barrier. -/
theorem lexeme_calm {s c : Char} (hs : Barrier s) (heq : s ≠ '=') (hangle : s ≠ '>')
    (hc : isCalm c = true) (u v : List Char) :
    ∃ k n, n ≤ u.length ∧ ∀ line, lexeme line c (u ++ s :: v) = .ok (k, n) := by
  cases leading c with
  | newline => cases hc
  | hash => cases hc
  | slash => cases hc
  | quote => cases hc
  | angle => cases hc
  | equals =>
    have hpair : (u ++ s :: v).take 1 = ['='] ∨ (u ++ s :: v).take 1 = ['>'] ↔
        u.take 1 = ['='] ∨ u.take 1 = ['>'] := by
      rw [take_one_append_barrier heq, take_one_append_barrier hangle]
    by_cases hmark : u.take 1 = ['='] ∨ u.take 1 = ['>']
    · have hu : 1 ≤ u.length := by
        cases u with
        | nil => simp at hmark
        | cons d u => simp
      exact ⟨.operator, 1, hu, fun line => by rw [lexeme_at_equals, if_pos (hpair.2 hmark)]⟩
    · exact ⟨.equals, 0, Nat.zero_le _, fun line => by
        rw [lexeme_at_equals, if_neg (mt hpair.1 hmark)]⟩
  | digit hdigit =>
    have hnumber : numberAt (c :: (u ++ s :: v)) = numberAt (c :: u) :=
      numberAt_barrier hs (c :: u) v
    refine ⟨.number (numberAt (c :: u)).1, (numberAt (c :: u)).2 - 1, ?_, fun line => ?_⟩
    · have := numberAt_length (c :: u)
      rw [List.length_cons] at this
      omega
    · rw [lexeme_at_digit line _ hdigit, hnumber]
  | name hdigit hname =>
    refine ⟨.ident, (u.takeWhile isNameChar).length, (List.takeWhile_sublist _).length_le,
      fun line => ?_⟩
    rw [lexeme_at_name line _ hdigit hname, takeWhile_append_barrier hs.name]
  | mark hspecial hdigit hname =>
    exact ⟨(punctuation? c).getD .operator, 0, Nat.zero_le _,
      fun line => lexeme_at_mark line _ hspecial hdigit hname⟩

theorem barrier_hash : Barrier '#' := by
  constructor <;> decide

theorem Reads.join {cs ds after : List Char} (hc : Reads cs (ds ++ after) fun _ => True)
    (hd : Reads ds after fun _ => True) : Reads (cs ++ ds) after fun _ => True :=
  hc.append hd fun _ _ _ _ => trivial

theorem Reads.newline {ds after : List Char} (hd : Reads ds after fun _ => True) :
    Reads ('\n' :: ds) after fun _ => True :=
  .token '\n' [] rfl (fun line => lexeme_newline line _) hd fun _ _ _ _ _ => trivial

/-- A token of some of the next characters, before characters that are read. -/
theorem Reads.take {k : Token.Kind} {c : Char} {n : Nat} {cs after : List Char}
    (solid : isGap c = false) (hn : n ≤ cs.length)
    (read : ∀ line, lexeme line c (cs ++ after) = .ok (k, n))
    (h : Reads (cs.drop n) after fun _ => True) : Reads (c :: cs) after fun _ => True := by
  have hread : ∀ line, lexeme line c (cs.take n ++ (cs.drop n ++ after)) =
      .ok (k, (cs.take n).length) := by
    intro line
    rw [← List.append_assoc, List.take_append_drop, List.length_take_of_le hn]
    exact read line
  have htoken : Reads (c :: (cs.take n ++ cs.drop n)) after fun _ => True :=
    .token c (cs.take n) solid hread h fun _ _ _ _ _ => trivial
  rwa [List.take_append_drop] at htoken

/-- Calm characters are read before a barrier. -/
theorem reads_calm {s : Char} (hs : Barrier s) (heq : s ≠ '=') (hangle : s ≠ '>')
    {cs : List Char} (h : ∀ c ∈ cs, isCalm c = true) (after : List Char) :
    Reads cs (s :: after) fun _ => True := by
  induction hn : cs.length using Nat.strongRecOn generalizing cs with
  | _ m ih =>
    subst hn
    cases cs with
    | nil => exact .nil trivial
    | cons c u =>
      have hu : ∀ d ∈ u, isCalm d = true := fun d hd => h d (List.mem_cons_of_mem c hd)
      by_cases hgap : isGap c = true
      · exact .gap hgap (ih u.length (Nat.lt_succ_self _) hu rfl)
      · obtain ⟨k, n, hn, hread⟩ := lexeme_calm hs heq hangle (h c (List.mem_cons_self ..)) u after
        exact .take (by simpa using hgap) hn hread (ih (u.drop n).length
          (by rw [List.length_drop, List.length_cons]; omega)
          (fun d hd => hu d (List.mem_of_mem_drop hd)) rfl)

/-! ## Lines -/

/-- Whether a line, after `skip` characters of a string, can be split into tokens: outside strings
stand calm characters, up to a comment. -/
def lineReads : Nat → List Char → Bool
  | skip, [] => skip == 0
  | skip + 1, _ :: cs => lineReads skip cs
  | 0, c :: cs =>
    if c = '#' then !cs.contains '\n'
    else if c = '"' then
      match quotedString 0 (cs ++ ['\n']) with
      | .ok q => lineReads q.length cs
      | .error _ => false
    else isCalm c && lineReads 0 cs

theorem lineReads_skip {skip : Nat} {cs : List Char} (h : lineReads skip cs = true) :
    skip ≤ cs.length ∧ lineReads 0 (cs.drop skip) = true := by
  induction cs generalizing skip with
  | nil =>
    cases skip with
    | zero => exact ⟨Nat.le_refl 0, h⟩
    | succ skip => cases h
  | cons c cs ih =>
    cases skip with
    | zero => exact ⟨Nat.zero_le _, h⟩
    | succ skip => exact ⟨Nat.succ_le_succ (ih h).1, (ih h).2⟩

/-- A string on a line is read before any text on further lines. -/
theorem lexeme_quoted {q : QuotedString} {cs : List Char}
    (h : quotedString 0 (cs ++ ['\n']) = .ok q) (hlength : q.length ≤ cs.length) (line : Nat)
    (after : List Char) :
    lexeme line '"' (cs ++ '\n' :: after) =
      .ok (.string (String.ofList q.value) q.template, q.length) := by
  have hread : quotedString line (cs ++ '\n' :: after) = .ok q := by
    exact quotedString_append (.head '\n' [] after) h hlength
  exact (lexeme_at_quote_iff line _).2 ⟨q, hread, rfl, rfl⟩

/-- A line that passes the check is read before any text on further lines. -/
theorem reads_of_lineReads {cs : List Char} (h : lineReads 0 cs = true) (after : List Char) :
    Reads cs ('\n' :: after) fun _ => True := by
  -- Calm characters are gathered up to what ends them, since a token may hold several.
  suffices hcalm : ∀ us, (∀ c ∈ us, isCalm c = true) → Reads (us ++ cs) ('\n' :: after) fun _ => True by
    exact hcalm [] fun _ hc => nomatch hc
  induction hn : cs.length using Nat.strongRecOn generalizing cs with
  | _ m ih =>
    subst hn
    intro us hus
    cases cs with
    | nil =>
      rw [List.append_nil]
      exact reads_calm barrier_newline (by decide) (by decide) hus after
    | cons c cs =>
      rw [lineReads] at h
      by_cases hhash : c = '#'
      · rw [if_pos hhash] at h
        subst hhash
        have hcs : '\n' ∉ cs := by simpa using h
        have htake : (cs ++ '\n' :: after).takeWhile (· != '\n') = cs := by
          have hpos : ∀ c ∈ cs, (c != '\n') = true := by
            intro c hc
            simp only [bne_iff_ne, ne_eq]
            rintro rfl
            exact hcs hc
          rw [List.takeWhile_append_of_pos hpos]
          simp
        refine .join (reads_calm barrier_hash (by decide) (by decide) hus _) ?_
        have hread : ∀ line, lexeme line '#' (cs ++ '\n' :: after) = .ok (.comment, cs.length) := by
          intro line
          rw [lexeme_at_hash, htake]
        exact .take rfl (Nat.le_refl _) hread (by rw [List.drop_length]; exact .nil trivial)
      rw [if_neg hhash] at h
      by_cases hquote : c = '"'
      · rw [if_pos hquote] at h
        subst hquote
        split at h
        · next q hq =>
          obtain ⟨hlength, hrest⟩ := lineReads_skip h
          have hrest' := ih (cs.drop q.length).length
            (by rw [List.length_drop, List.length_cons]; omega) hrest rfl [] fun _ hc => nomatch hc
          refine .join (reads_calm barrier_quote (by decide) (by decide) hus _) ?_
          exact .take rfl hlength (fun line => lexeme_quoted hq hlength line after) hrest'
        · cases h
      · rw [if_neg hquote, Bool.and_eq_true] at h
        have e : us ++ c :: cs = us ++ [c] ++ cs := by simp
        rw [e]
        refine ih cs.length (Nat.lt_succ_self _) h.2 rfl _ fun d hd => ?_
        rcases List.mem_append.1 hd with hd | hd
        · exact hus d hd
        · rw [List.mem_singleton.1 hd]
          exact h.1

/-- Lines that are read, each closed by a newline, are read one after another. -/
theorem reads_closed {ls : List (List Char)} (after : List Char)
    (h : ∀ l ∈ ls, ∀ after', Reads l ('\n' :: after') fun _ => True) :
    Reads (Text.closedChars ls) after fun _ => True := by
  induction ls with
  | nil => exact .nil trivial
  | cons l ls ih =>
    rw [Text.closedChars_cons]
    refine .join (h l (List.mem_cons_self ..) _) ?_
    exact .newline (ih fun m hm => h m (List.mem_cons_of_mem l hm))

end InstanceInventory.Literal
