import InstanceInventory.Proofs.Literal.Cutoff
import InstanceInventory.Proofs.Literal.Ending

/-! # Lines of a text are read on their own

* `exists_newline_last`: a newline that ends a text is a token of its own.
* `tokensFrom_forth`: the tokens of a text that stands after another one are its own, moved.
* `tokenize_across_newline`: the tokens on both sides of a newline between two tokens.
-/

namespace InstanceInventory.Literal
set_option autoImplicit false
variable {place line : Nat} {cs after : List Char} {ps : List Piece} {ts : List Token}

/-- A newline that ends a text is a token of its own. -/
theorem exists_newline_last (h : Lexed after ps) (hchars : charsOf ps = cs ++ ['\n']) :
    ∃ qs, ps = qs ++ [.token .newline '\n' []] ∧ charsOf qs = cs := by
  rcases List.eq_nil_or_concat' ps with rfl | ⟨qs, p, rfl⟩
  · exact absurd hchars.symm (List.append_ne_nil_of_right_ne_nil cs (List.cons_ne_nil _ _))
  rw [charsOf_append] at hchars
  cases h.right with
  | @gap c _ blank _ =>
    obtain ⟨-, hlast⟩ := List.append_inj' hchars rfl
    cases hlast
    cases blank
  | @token k c ds _ solid read _ =>
    have hread := read 0
    rw [charsOf_nil, List.nil_append] at hread
    by_cases hk : k = .newline
    · subst hk
      obtain ⟨rfl, hlength⟩ := newline_of_lexeme hread
      obtain rfl := List.length_eq_zero_iff.1 hlength
      exact ⟨qs, rfl, (List.append_inj' hchars rfl).1⟩
    · -- A token of another kind does not end with a newline.
      obtain ⟨ds', hds'⟩ : ∃ ds', c :: ds = ds' ++ ['\n'] := by
        rcases List.eq_nil_or_concat' (c :: ds) with hnil | ⟨ds', d, heq⟩
        · cases hnil
        · refine ⟨ds', ?_⟩
          rw [charsOf_token, charsOf_nil, List.append_nil, heq, ← List.append_assoc] at hchars
          obtain ⟨-, hlast⟩ := List.append_inj' hchars rfl
          rw [heq, hlast]
      exact absurd hds' (ends_of_lexeme hread hk ds')

/-- The tokens of a text that stands after another one are its own tokens, moved. -/
theorem tokensFrom_forth (place line : Nat) (us : List Token) :
    tokensFrom place line 0 cs = .ok us ↔
      ∃ vs, tokensFrom 0 0 0 cs = .ok vs ∧ us = vs.map (Token.forth place line) := by
  have hmoved : ∀ ps, (placed 0 0 ps).map (Token.forth place line) = placed place line ps :=
    placed_forth place line 0 0
  have hread : ∀ {ps : List Piece}, Lexed [] ps → ∀ place line,
      tokensFrom place line 0 (charsOf ps) = .ok (placed place line ps) := by
    intro ps hlexed place line
    have h := tokensFrom_charsOf hlexed place line
    rwa [List.append_nil, tokensFrom, Except.map, List.append_nil] at h
  constructor
  · intro h
    obtain ⟨ps, rfl, hlexed, rfl⟩ := exists_pieces_from h
    exact ⟨placed 0 0 ps, hread hlexed 0 0, (hmoved ps).symm⟩
  · rintro ⟨vs, h, rfl⟩
    obtain ⟨ps, rfl, hlexed, rfl⟩ := exists_pieces_from h
    rw [hmoved]
    exact hread hlexed place line

/-- Where a text with a newline after it can be split into tokens, it can be split with another text
after the newline just if the other text can; the tokens are then those of the first text, the newline
and those of the other text, moved past the newline. -/
theorem tokenize_across_newline {a b : String} (h : tokenize (a ++ "\n") = .ok ts)
    (us : List Token) :
    tokenize (a ++ "\n" ++ b) = .ok us ↔
      ∃ vs, tokenize b = .ok vs ∧
        us = ts ++ vs.map (Token.forth (a.length + 1) (a.toList.count '\n' + 1)) := by
  obtain ⟨ps, hchars, hlexed, rfl⟩ := exists_pieces h
  replace hchars : charsOf ps = a.toList ++ ['\n'] := by rw [hchars, String.toList_append]; rfl
  -- The text ends at the newline, past which no token of it looks.
  have hlexed' : Lexed b.toList ps := by
    obtain ⟨qs, rfl, -⟩ := exists_newline_last hlexed hchars
    exact .append (hlexed.left.barrier barrier_newline) (.single rfl fun _ => lexeme_newline _ _)
  have hplace : 0 + (charsOf ps).length = a.length + 1 := by
    rw [hchars, List.length_append, List.length_singleton, Nat.zero_add, String.length_toList]
  have hline : lineAfterAll 0 (charsOf ps) = a.toList.count '\n' + 1 := by
    rw [lineAfterAll_eq_count, hchars, List.count_append, Nat.zero_add, List.count_singleton_self]
  have hread := tokensFrom_charsOf hlexed' 0 0
  rw [hplace, hline] at hread
  rw [tokenize, String.toList_append, String.toList_append, show "\n".toList = ['\n'] from rfl,
    ← hchars, hread]
  constructor
  · intro hall
    cases hb : tokensFrom (a.length + 1) (a.toList.count '\n' + 1) 0 b.toList with
    | error f =>
      rw [hb] at hall
      cases hall
    | ok ws =>
      rw [hb] at hall
      cases hall
      obtain ⟨vs, hvs, rfl⟩ := (tokensFrom_forth _ _ ws).1 hb
      exact ⟨vs, hvs, rfl⟩
  · rintro ⟨vs, hvs, rfl⟩
    rw [(tokensFrom_forth _ _ _).2 ⟨vs, hvs, rfl⟩]
    rfl

/-- A heredoc that has ended at the newline is not gone on with by a line that holds its marker, and a
quote after the newline is still no string. -/
theorem tokenize_across_newline_heredoc :
    ∃ ts, tokenize ("t = <<E\nx\nE" ++ "\n") = .ok ts ∧
      tokenize ("t = <<E\nx\nE" ++ "\n" ++ "E") = .ok (ts ++ [⟨.ident, "E", 12, 13, 3⟩]) ∧
      ∀ us, tokenize ("t = <<E\nx\nE" ++ "\n" ++ "\"") ≠ .ok us := by
  have h : tokenize ("t = <<E\nx\nE" ++ "\n") = .ok [⟨.ident, "t", 0, 1, 0⟩, ⟨.equals, "=", 2, 3, 0⟩,
      ⟨.heredoc "x\n", "<<E\nx\nE", 4, 11, 0⟩, ⟨.newline, "\n", 11, 12, 2⟩] := by decide +kernel
  have hname : tokenize "E" = .ok [⟨.ident, "E", 0, 1, 0⟩] := by decide +kernel
  refine ⟨_, h, (tokenize_across_newline h _).2 ⟨_, hname, by decide +kernel⟩, fun us hus => ?_⟩
  obtain ⟨vs, hvs, -⟩ := (tokenize_across_newline h us).1 hus
  have hquote : tokenize "\"" = .error (.atLine .unterminatedString 0) := by decide +kernel
  rw [hquote] at hvs
  cases hvs

end InstanceInventory.Literal
