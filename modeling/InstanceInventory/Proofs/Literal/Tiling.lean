import InstanceInventory.Proofs.Literal.Lookahead

/-! # Tokens tile a text

* `Tiles`: tokens one after another, each with its own part of a text, and nothing but spaces, tabs
  and carriage returns between them.
* `tiles_placed`: pieces that are read back tile their characters.
* `opening_of_error`: only a string, a block comment or a heredoc can be left unread.
* `tokens_tile`: the tokens of a text tile it, or tile it up to what is left unread.
-/

namespace InstanceInventory.Literal
set_option autoImplicit false
variable {cs after : List Char} {ps : List Piece} {t : Token} {place line : Nat}

/-- Tokens that tile the beginning of a text, up to a place. -/
structure Tiles (cs : List Char) (place : Nat) (ts : List Token) : Prop where
  extent : ∀ t ∈ ts, t.start < t.stop ∧ t.stop ≤ place
  order : ts.Pairwise fun t u => t.stop ≤ u.start
  text : ∀ t ∈ ts, t.text = String.ofList ((cs.drop t.start).take (t.stop - t.start))
  line : ∀ t ∈ ts, t.line = (cs.take t.start).count '\n'
  read : ∀ t ∈ ts, ∃ c rest, cs.drop t.start = c :: rest ∧ isGap c = false ∧
    lexeme t.line c rest = .ok (t.kind, t.stop - t.start - 1)
  gaps : ∀ i c, i < place → cs[i]? = some c → (∀ t ∈ ts, i < t.start ∨ t.stop ≤ i) →
    c = ' ' ∨ c = '\t' ∨ c = '\r'

/-! ## Tokens of pieces -/

/-- The piece of a token, with the pieces on both sides of it. -/
theorem exists_piece_of_mem (h : t ∈ placed place line ps) :
    ∃ front k c ds back, ps = front ++ .token k c ds :: back ∧
      t = ⟨k, String.ofList (c :: ds), place + (charsOf front).length,
        place + (charsOf front).length + 1 + ds.length, lineAfterAll line (charsOf front)⟩ := by
  induction ps generalizing place line with
  | nil => cases h
  | cons p ps ih =>
    cases p with
    | gap c =>
      obtain ⟨front, k, d, ds, back, rfl, rfl⟩ := ih h
      have e : place + 1 + (charsOf front).length = place + ((charsOf front).length + 1) := by omega
      exact ⟨.gap c :: front, k, d, ds, back, rfl, by simp [e]⟩
    | token k c cs =>
      rcases List.mem_cons.1 h with rfl | h
      · exact ⟨[], k, c, cs, ps, rfl, rfl⟩
      · obtain ⟨front, l, d, ds, back, rfl, rfl⟩ := ih h
        have e : place + 1 + cs.length + (charsOf front).length =
            place + (cs.length + (charsOf front).length + 1) := by omega
        exact ⟨.token k c cs :: front, l, d, ds, back, rfl, by simp [e]⟩

theorem le_start_of_mem_placed (h : t ∈ placed place line ps) : place ≤ t.start := by
  obtain ⟨front, k, c, ds, back, -, rfl⟩ := exists_piece_of_mem h
  exact Nat.le_add_right ..

theorem placed_order (place line : Nat) (ps : List Piece) :
    (placed place line ps).Pairwise fun t u => t.stop ≤ u.start := by
  induction ps generalizing place line with
  | nil => exact .nil
  | cons p ps ih =>
    cases p with
    | gap c => exact ih _ _
    | token k c cs => exact List.pairwise_cons.2 ⟨fun _ => le_start_of_mem_placed, ih _ _⟩

/-- A character of pieces that are read back stands between tokens or belongs to one of them. -/
theorem gap_or_mem (h : Lexed after ps) (place line : Nat) {i : Nat} {c : Char}
    (hc : (charsOf ps)[i]? = some c) :
    isGap c = true ∨ ∃ t ∈ placed place line ps, t.start ≤ place + i ∧ place + i < t.stop := by
  induction h generalizing place line i with
  | nil => cases hc
  | @gap d ps blank _ ih =>
    cases i with
    | zero =>
      obtain rfl : d = c := by simpa using hc
      exact .inl blank
    | succ i =>
      rcases ih (place + 1) (lineAfter line d) (by simpa using hc) with hgap | ⟨t, ht, hplace⟩
      · exact .inl hgap
      · exact .inr ⟨t, ht, by omega⟩
  | @token k d ds ps _ _ _ ih =>
    rcases Nat.lt_or_ge i (1 + ds.length) with hin | hout
    · refine .inr ⟨_, List.mem_cons_self .., Nat.le_add_right place i, ?_⟩
      dsimp only
      omega
    · obtain ⟨j, rfl⟩ := Nat.exists_eq_add_of_le hout
      have hrest : (charsOf ps)[j]? = some c := by
        rw [charsOf_token, ← List.cons_append, Nat.add_comm 1,
          List.getElem?_append_right (by simp)] at hc
        simpa using hc
      rcases ih (place + 1 + ds.length) (lineAfterAll line (d :: ds)) hrest with hgap | ⟨t, ht, hplace⟩
      · exact .inl hgap
      · exact .inr ⟨t, List.mem_cons_of_mem _ ht, by omega⟩

/-- A token of pieces that are read back, as the text has it. -/
theorem exists_read_of_mem (h : Lexed after ps) (ht : t ∈ placed 0 0 ps) :
    ∃ front k c ds rest, charsOf ps ++ after = front ++ c :: (ds ++ rest) ∧ isGap c = false ∧
      (∀ line, lexeme line c (ds ++ rest) = .ok (k, ds.length)) ∧
      front.length + 1 + ds.length ≤ (charsOf ps).length ∧
      t = ⟨k, String.ofList (c :: ds), front.length, front.length + 1 + ds.length,
        lineAfterAll 0 front⟩ := by
  obtain ⟨front, k, c, ds, back, rfl, rfl⟩ := exists_piece_of_mem ht
  cases h.right with
  | token solid read _ =>
    refine ⟨charsOf front, k, c, ds, charsOf back ++ after, by simp, solid, read, ?_, ?_⟩
    · simp only [charsOf_append, charsOf_token, List.length_append, List.length_cons]
      omega
    · simp only [Nat.zero_add]

/-- Pieces that are read back tile their characters. -/
theorem tiles_placed (h : Lexed after ps) :
    Tiles (charsOf ps ++ after) (charsOf ps).length (placed 0 0 ps) where
  extent t ht := by
    obtain ⟨front, k, c, ds, rest, -, -, -, hlength, rfl⟩ := exists_read_of_mem h ht
    exact ⟨by dsimp only; omega, hlength⟩
  order := placed_order 0 0 ps
  text t ht := by
    obtain ⟨front, k, c, ds, rest, hsplit, -, -, -, rfl⟩ := exists_read_of_mem h ht
    have hlength : front.length + 1 + ds.length - front.length = (c :: ds).length := by
      rw [List.length_cons]
      omega
    dsimp only
    rw [hsplit, List.drop_left, hlength, ← List.cons_append, List.take_left]
  line t ht := by
    obtain ⟨front, k, c, ds, rest, hsplit, -, -, -, rfl⟩ := exists_read_of_mem h ht
    dsimp only
    rw [hsplit, List.take_left, lineAfterAll_eq_count, Nat.zero_add]
  read t ht := by
    obtain ⟨front, k, c, ds, rest, hsplit, hsolid, hread, -, rfl⟩ := exists_read_of_mem h ht
    have hlength : front.length + 1 + ds.length - front.length - 1 = ds.length := by omega
    dsimp only
    rw [hsplit, List.drop_left, hlength]
    exact ⟨c, ds ++ rest, rfl, hsolid, hread _⟩
  gaps i c hi hc hout := by
    rw [List.getElem?_append_left hi] at hc
    rcases gap_or_mem h 0 0 hc with hgap | ⟨t, ht, hplace⟩
    · simpa [isGap, or_assoc] using hgap
    · have := hout t ht
      omega

theorem tiles_of_tokenize {text : String} {ts : List Token} (h : tokenize text = .ok ts) :
    Tiles text.toList text.toList.length ts := by
  obtain ⟨ps, hchars, hlexed, rfl⟩ := exists_pieces h
  have htiles := tiles_placed hlexed
  rwa [List.append_nil, hchars] at htiles

theorem Tiles.exists_chars {ts : List Token} (h : Tiles cs place ts) (ht : t ∈ ts) :
    ∃ front c ds rest, cs = front ++ c :: (ds ++ rest) ∧ t.start = front.length ∧
      t.stop = (front ++ c :: ds).length ∧
      lexeme t.line c (ds ++ rest) = .ok (t.kind, ds.length) := by
  obtain ⟨c, rest, hdrop, -, hread⟩ := h.read t ht
  have hextent := (h.extent t ht).1
  have hlength : (rest.take (t.stop - t.start - 1)).length = t.stop - t.start - 1 :=
    List.length_take_of_le (lexeme_length hread)
  have hstart : t.start < cs.length := by
    have := congrArg List.length hdrop
    rw [List.length_drop, List.length_cons] at this
    omega
  have hfront : (cs.take t.start).length = t.start := List.length_take_of_le (Nat.le_of_lt hstart)
  refine ⟨cs.take t.start, c, rest.take (t.stop - t.start - 1), rest.drop (t.stop - t.start - 1),
    ?_, hfront.symm, ?_, ?_⟩
  · rw [List.take_append_drop, ← hdrop, List.take_append_drop]
  · rw [List.length_append, List.length_cons, hfront, hlength]
    omega
  · rw [List.take_append_drop, hlength]
    exact hread

/-! ## What is left unread -/

/-- Only a string, a block comment or a heredoc can be left unread. -/
theorem opening_of_error {c : Char} {rest : List Char} {f : Fault}
    (h : lexeme line c rest = .error f) :
    c = '"' ∨ (c = '/' ∧ rest.take 1 = ['*']) ∨ (heredocOpening? (c :: rest)).isSome = true := by
  obtain ⟨hquote, -⟩ | ⟨hslash, hmark, -⟩ | ⟨o, ho, -⟩ := lexeme_error line rest h
  · exact .inl hquote
  · exact .inr (.inl ⟨hslash, hmark⟩)
  · exact .inr (.inr (by rw [ho]; rfl))

/-- The lexer ends on every text: its tokens tile the text, or they tile it up to a string, a block
comment or a heredoc that cannot be read, which the error is about. -/
theorem tokens_tile (text : String) :
    match tokenize text with
    | .ok ts => Tiles text.toList text.toList.length ts
    | .error f => ∃ place ts c rest, Tiles text.toList place ts ∧ text.toList.drop place = c :: rest ∧
        (c = '"' ∨ (c = '/' ∧ rest.take 1 = ['*']) ∨ (heredocOpening? (c :: rest)).isSome = true) ∧
        lexeme ((text.toList.take place).count '\n') c rest = .error f := by
  cases htokens : tokenize text with
  | ok ts => exact tiles_of_tokenize htokens
  | error f =>
    obtain ⟨ps, after, hchars, hlexed, hafter⟩ := exists_lexed text.toList
    rw [tokenize, ← hchars, tokensFrom_charsOf hlexed] at htokens
    rcases hafter with rfl | ⟨c, rest, rfl, hunreadable⟩
    · cases htokens
    · obtain ⟨g, hlexeme, hg⟩ := hunreadable.tokensFrom (0 + (charsOf ps).length)
        (lineAfterAll 0 (charsOf ps))
      rw [hg] at htokens
      cases htokens
      rw [lineAfterAll_eq_count, Nat.zero_add] at hlexeme
      refine ⟨(charsOf ps).length, placed 0 0 ps, c, rest, ?_⟩
      rw [← hchars, List.drop_left, List.take_left]
      exact ⟨tiles_placed hlexed, rfl, opening_of_error hlexeme, hlexeme⟩

/-- A quote in a heredoc opens no string, and the newline after the heredoc is a token of its own. -/
example : (tokenize "a = <<E\n\" b\nE\nc").toOption.map (·.map fun t => (t.start, t.stop)) =
    some [(0, 1), (2, 3), (4, 13), (13, 14), (14, 15)] := by
  decide +kernel

end InstanceInventory.Literal
