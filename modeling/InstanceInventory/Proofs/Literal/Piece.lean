import InstanceInventory.Literal.Lexer

/-! # Pieces of a text

* `Piece`: a character between tokens, or a token without its place; `charsOf` writes pieces out.
* `placed`: the tokens of pieces that begin at a place on a line.
* `Lexed after ps`: written before the characters `after`, pieces are read back as they are.
* `tokensFrom_charsOf`: the tokens of pieces that are read back, and the tokens after them.
* `Lexed.exists_prefix`: pieces that are read back are determined by their characters.
-/

namespace InstanceInventory.Literal
set_option autoImplicit false

/-! ## Pieces and their places -/

/-- A character between tokens, or a token by its kind, its first character and the others. -/
inductive Piece where
  | gap (c : Char)
  | token (kind : Token.Kind) (head : Char) (tail : List Char)
  deriving DecidableEq

def Piece.chars : Piece → List Char
  | .gap c => [c]
  | .token _ c cs => c :: cs

def charsOf (ps : List Piece) : List Char :=
  ps.flatMap Piece.chars

@[simp] theorem charsOf_nil : charsOf [] = [] := rfl

@[simp] theorem charsOf_gap (c : Char) (ps : List Piece) :
    charsOf (.gap c :: ps) = c :: charsOf ps := rfl

@[simp] theorem charsOf_token (k : Token.Kind) (c : Char) (cs : List Char) (ps : List Piece) :
    charsOf (.token k c cs :: ps) = c :: (cs ++ charsOf ps) := rfl

@[simp] theorem charsOf_append (ps qs : List Piece) :
    charsOf (ps ++ qs) = charsOf ps ++ charsOf qs :=
  List.flatMap_append

def lineAfterAll (line : Nat) (cs : List Char) : Nat :=
  cs.foldl lineAfter line

@[simp] theorem lineAfterAll_nil (line : Nat) : lineAfterAll line [] = line := rfl

@[simp] theorem lineAfterAll_cons (line : Nat) (c : Char) (cs : List Char) :
    lineAfterAll line (c :: cs) = lineAfterAll (lineAfter line c) cs := rfl

@[simp] theorem lineAfterAll_append (line : Nat) (cs ds : List Char) :
    lineAfterAll line (cs ++ ds) = lineAfterAll (lineAfterAll line cs) ds :=
  List.foldl_append

theorem lineAfterAll_eq_count (line : Nat) (cs : List Char) :
    lineAfterAll line cs = line + cs.count '\n' := by
  induction cs generalizing line with
  | nil => rfl
  | cons c cs ih =>
    rw [lineAfterAll_cons, ih]
    by_cases h : c = '\n'
    · subst h
      simp [lineAfter]
      omega
    · simp [lineAfter, h]

theorem lineAfterAll_eq_self {cs : List Char} (h : '\n' ∉ cs) (line : Nat) :
    lineAfterAll line cs = line := by
  rw [lineAfterAll_eq_count, List.count_eq_zero_of_not_mem h, Nat.add_zero]

/-- The tokens of pieces that begin at a place on a line. -/
def placed (place line : Nat) : List Piece → List Token
  | [] => []
  | .gap c :: ps => placed (place + 1) (lineAfter line c) ps
  | .token k c cs :: ps =>
    ⟨k, String.ofList (c :: cs), place, place + 1 + cs.length, line⟩ ::
      placed (place + 1 + cs.length) (lineAfterAll line (c :: cs)) ps

theorem placed_append (place line : Nat) (ps qs : List Piece) :
    placed place line (ps ++ qs) = placed place line ps ++
      placed (place + (charsOf ps).length) (lineAfterAll line (charsOf ps)) qs := by
  induction ps generalizing place line with
  | nil => rfl
  | cons p ps ih =>
    cases p with
    | gap c =>
      have e : place + 1 + (charsOf ps).length = place + ((charsOf ps).length + 1) := by omega
      simp [placed, ih, e]
    | token k c cs =>
      have e : place + 1 + cs.length + (charsOf ps).length
          = place + (cs.length + (charsOf ps).length + 1) := by omega
      simp [placed, ih, e]

/-! ## Reading back -/

/-- Written before the characters `after`, pieces are read back as they are. -/
inductive Lexed (after : List Char) : List Piece → Prop
  | nil : Lexed after []
  | gap {c : Char} {ps : List Piece} (blank : isGap c = true) (rest : Lexed after ps) :
    Lexed after (.gap c :: ps)
  | token {k : Token.Kind} {c : Char} {cs : List Char} {ps : List Piece} (solid : isGap c = false)
    (read : ∀ line, lexeme line c (cs ++ (charsOf ps ++ after)) = .ok (k, cs.length))
    (rest : Lexed after ps) : Lexed after (.token k c cs :: ps)

theorem Lexed.append {after : List Char} {ps qs : List Piece}
    (hp : Lexed (charsOf qs ++ after) ps) (hq : Lexed after qs) : Lexed after (ps ++ qs) := by
  induction hp with
  | nil => exact hq
  | gap blank _ ih => exact .gap blank ih
  | @token k c cs ps solid read _ ih =>
    have e : charsOf (ps ++ qs) ++ after = charsOf ps ++ (charsOf qs ++ after) := by
      rw [charsOf_append, List.append_assoc]
    exact .token solid (fun line => (congrArg _ (congrArg _ e)).trans (read line)) ih

theorem Lexed.left {after : List Char} {ps qs : List Piece} (h : Lexed after (ps ++ qs)) :
    Lexed (charsOf qs ++ after) ps := by
  induction ps with
  | nil => exact .nil
  | cons p ps ih =>
    cases h with
    | gap blank rest => exact .gap blank (ih rest)
    | token solid read rest =>
      refine .token solid (fun line => ?_) (ih rest)
      rw [← List.append_assoc (charsOf ps), ← charsOf_append]
      exact read line

theorem Lexed.right {after : List Char} {ps qs : List Piece} (h : Lexed after (ps ++ qs)) :
    Lexed after qs := by
  induction ps with
  | nil => exact h
  | cons p ps ih =>
    cases h with
    | gap _ rest => exact ih rest
    | token _ _ rest => exact ih rest

theorem Lexed.single {after : List Char} {k : Token.Kind} {c : Char} {cs : List Char}
    (solid : isGap c = false) (read : ∀ line, lexeme line c (cs ++ after) = .ok (k, cs.length)) :
    Lexed after [.token k c cs] :=
  .token solid read .nil

theorem lexed_gaps {after cs : List Char} (h : ∀ c ∈ cs, isGap c = true) :
    Lexed after (cs.map .gap) := by
  induction cs with
  | nil => exact .nil
  | cons c cs ih =>
    exact .gap (h c (List.mem_cons_self ..)) (ih fun d hd => h d (List.mem_cons_of_mem c hd))

@[simp] theorem charsOf_gaps (cs : List Char) : charsOf (cs.map .gap) = cs := by
  induction cs with
  | nil => rfl
  | cons c cs ih => rw [List.map_cons, charsOf_gap, ih]

theorem placed_gaps (place line : Nat) (cs : List Char) : placed place line (cs.map .gap) = [] := by
  induction cs generalizing place line with
  | nil => rfl
  | cons c cs ih => exact ih (place + 1) (lineAfter line c)

theorem tokensFrom_skip (place line : Nat) (cs after : List Char) :
    tokensFrom place line cs.length (cs ++ after) =
      tokensFrom (place + cs.length) (lineAfterAll line cs) 0 after := by
  induction cs generalizing place line with
  | nil => rfl
  | cons c cs ih =>
    have e : place + 1 + cs.length = place + (cs.length + 1) := by omega
    rw [List.cons_append, List.length_cons, tokensFrom, ih, e]
    rfl

/-- The tokens of pieces that are read back, and the tokens after them. -/
theorem tokensFrom_charsOf {after : List Char} {ps : List Piece} (h : Lexed after ps)
    (place line : Nat) :
    tokensFrom place line 0 (charsOf ps ++ after) =
      (tokensFrom (place + (charsOf ps).length) (lineAfterAll line (charsOf ps)) 0 after).map
        (placed place line ps ++ ·) := by
  induction h generalizing place line with
  | nil =>
    simp only [charsOf_nil, List.nil_append, List.length_nil, Nat.add_zero, lineAfterAll_nil,
      placed]
    cases tokensFrom place line 0 after <;> rfl
  | @gap c ps blank _ ih =>
    have e : place + 1 + (charsOf ps).length = place + ((charsOf ps).length + 1) := by omega
    simp only [charsOf_gap, List.cons_append, tokensFrom, blank, if_true, ih, List.length_cons, e,
      lineAfterAll_cons, placed]
  | @token k c cs ps solid read _ ih =>
    have e : place + 1 + cs.length + (charsOf ps).length
        = place + (cs.length + (charsOf ps).length + 1) := by omega
    have hskip := tokensFrom_skip (place + 1) (lineAfter line c) cs (charsOf ps ++ after)
    simp only [charsOf_token, List.cons_append, List.append_assoc, tokensFrom, solid, read, hskip,
      ih, List.length_cons, List.length_append, e, lineAfterAll_cons, lineAfterAll_append, placed,
      List.take_left, Bool.false_eq_true, if_false]
    cases tokensFrom (place + (cs.length + (charsOf ps).length + 1))
      (lineAfterAll (lineAfterAll (lineAfter line c) cs) (charsOf ps)) 0 after <;> rfl

/-- Pieces are determined by their characters: those that begin with the characters of other pieces
begin with these pieces. -/
theorem Lexed.exists_prefix {after ys : List Char} {hs ps : List Piece}
    (hh : Lexed (ys ++ after) hs) (hp : Lexed after ps) (h : charsOf ps = charsOf hs ++ ys) :
    ∃ rest, ps = hs ++ rest ∧ charsOf rest = ys := by
  induction hh generalizing ps with
  | nil => exact ⟨ps, rfl, h⟩
  | gap blank _ ih =>
    cases hp with
    | nil => cases h
    | gap _ rest =>
      obtain ⟨rfl, htail⟩ := List.cons.inj h
      obtain ⟨qs, rfl, hqs⟩ := ih rest htail
      exact ⟨qs, rfl, hqs⟩
    | token solid _ _ =>
      obtain ⟨rfl, -⟩ := List.cons.inj h
      rw [blank] at solid
      cases solid
  | @token k c cs hs solid read _ ih =>
    cases hp with
    | nil => cases h
    | gap blank _ =>
      obtain ⟨rfl, -⟩ := List.cons.inj h
      rw [blank] at solid
      cases solid
    | @token l d ds ps _ read' rest =>
      rw [charsOf_token, charsOf_token, List.cons_append, List.append_assoc] at h
      obtain ⟨rfl, htail⟩ := List.cons.inj h
      have e : ds ++ (charsOf ps ++ after) = cs ++ (charsOf hs ++ (ys ++ after)) := by
        rw [← List.append_assoc, htail, List.append_assoc, List.append_assoc]
      have hread := read' 0
      rw [e, read 0] at hread
      obtain ⟨rfl, hlength⟩ := Prod.mk.inj (Except.ok.inj hread)
      obtain ⟨rfl, hrest⟩ := List.append_inj htail hlength.symm
      obtain ⟨qs, rfl, hqs⟩ := ih rest hrest
      exact ⟨qs, rfl, hqs⟩

/-- The tokens of a text that pieces write. -/
theorem tokenize_charsOf {ps : List Piece} (h : Lexed [] ps) :
    tokenize (String.ofList (charsOf ps)) = .ok (placed 0 0 ps) := by
  have e := tokensFrom_charsOf h 0 0
  rw [List.append_nil] at e
  rw [tokenize, String.toList_ofList, e]
  simp [tokensFrom, Except.map]

end InstanceInventory.Literal
