import InstanceInventory.Document.Entry

/-! # Nested tokens

* `Nested`: kinds of token in which brackets, braces and parentheses match.
* `valueEnd_nested`, `closingBrace?_nested`: neither the end of a value nor a closing brace is found
  inside nested tokens.
* `itemsFrom_entry`: a key, an equals sign and a nested block are one entry, with a comma after them
  and a comment on the line where the block ends.
-/

namespace InstanceInventory.Document
set_option autoImplicit false
open Literal (Token)

/-! ## Nesting -/

/-- Whether a sign closes what another opens. -/
def closes : Token.Kind → Token.Kind → Bool
  | .openBrace, .closeBrace | .openBracket, .closeBracket | .openParen, .closeParen => true
  | _, _ => false

/-- Kinds of token in which every opening sign has its closing one. -/
inductive Nested : List Token.Kind → Prop
  | nil : Nested []
  | plain {k : Token.Kind} {ks : List Token.Kind} (opener : k.isOpener = false)
    (closer : k.isCloser = false) (rest : Nested ks) : Nested (k :: ks)
  | group {k l : Token.Kind} {ks ls : List Token.Kind} (pair : closes k l = true)
    (inside : Nested ks) (rest : Nested ls) : Nested (k :: (ks ++ l :: ls))

theorem Nested.append {ks ls : List Token.Kind} (hk : Nested ks) (hl : Nested ls) :
    Nested (ks ++ ls) := by
  induction hk with
  | nil => exact hl
  | plain opener closer _ ih => exact .plain opener closer ih
  | group pair inside _ _ ih =>
    rw [List.cons_append, List.append_assoc, List.cons_append]
    exact .group pair inside ih

theorem Nested.single {k l : Token.Kind} {ks : List Token.Kind} (pair : closes k l = true)
    (inside : Nested ks) : Nested (k :: (ks ++ [l])) :=
  .group pair inside .nil

theorem isOpener_of_closes {k l : Token.Kind} (h : closes k l = true) :
    k.isOpener = true ∧ l.isOpener = false ∧ l.isCloser = true := by
  unfold closes at h
  split at h
  · exact ⟨rfl, rfl, rfl⟩
  · exact ⟨rfl, rfl, rfl⟩
  · exact ⟨rfl, rfl, rfl⟩
  · cases h

/-! ## Values and braces -/

theorem valueEnd_deep {depth : Int} (hdepth : 0 < depth) (last : Option Token) (passed : Nat)
    (t : Token) (ts : List Token) : ∃ last', valueEnd depth last passed (t :: ts) =
      valueEnd (depthAfter depth t) last' (passed + 1) ts := by
  refine ⟨if isSubstance t then some t else last, ?_⟩
  rw [valueEnd, if_neg (by omega)]

/-- A value goes on past nested tokens inside it. -/
theorem valueEnd_nested {ks : List Token.Kind} (h : Nested ks) {ts : List Token}
    (hts : ts.map Token.kind = ks) {depth : Int} (hdepth : 0 < depth) (last : Option Token)
    (passed : Nat) (us : List Token) :
    ∃ last', valueEnd depth last passed (ts ++ us) =
      valueEnd depth last' (passed + ts.length) us := by
  induction h generalizing ts depth last passed us with
  | nil =>
    rw [List.map_eq_nil_iff.1 hts]
    exact ⟨last, rfl⟩
  | plain opener closer _ ih =>
    obtain ⟨t, ts, rfl, rfl, hmap⟩ := List.map_eq_cons_iff.1 hts
    obtain ⟨last', hstep⟩ := valueEnd_deep hdepth last passed t (ts ++ us)
    have hafter : depthAfter depth t = depth := by simp [depthAfter, opener, closer]
    obtain ⟨last'', hrest⟩ := ih hmap hdepth last' (passed + 1) us
    refine ⟨last'', ?_⟩
    rw [List.cons_append, hstep, hafter, hrest, List.length_cons, Nat.add_assoc, Nat.add_comm 1]
  | group pair _ _ ih ih' =>
    obtain ⟨t, zs, rfl, rfl, hmap⟩ := List.map_eq_cons_iff.1 hts
    obtain ⟨xs, zs, rfl, hxs, hmap⟩ := List.map_eq_append_iff.1 hmap
    obtain ⟨u, ys, rfl, rfl, hys⟩ := List.map_eq_cons_iff.1 hmap
    obtain ⟨hopen, hopen', hclose⟩ := isOpener_of_closes pair
    have hin : depthAfter depth t = depth + 1 := by simp [depthAfter, hopen]
    have hout : depthAfter (depth + 1) u = depth := by simp [depthAfter, hopen', hclose]
    obtain ⟨l₁, h₁⟩ := valueEnd_deep hdepth last passed t (xs ++ u :: (ys ++ us))
    obtain ⟨l₂, h₂⟩ := ih hxs (by omega : 0 < depth + 1) l₁ (passed + 1) (u :: (ys ++ us))
    obtain ⟨l₃, h₃⟩ := valueEnd_deep (by omega : 0 < depth + 1) l₂
      (passed + 1 + xs.length) u (ys ++ us)
    obtain ⟨l₄, h₄⟩ := ih' hys hdepth l₃ (passed + 1 + xs.length + 1) us
    refine ⟨l₄, ?_⟩
    have e : passed + 1 + xs.length + 1 + ys.length = passed + (t :: (xs ++ u :: ys)).length := by
      simp only [List.length_cons, List.length_append]
      omega
    rw [← e, ← h₄, ← hout, ← h₃, hout, ← h₂, ← hin, ← h₁]
    simp

theorem closingBrace?_open {t : Token} (ht : t.kind = .openBrace) (braces : Nat)
    (ts : List Token) : closingBrace? braces (t :: ts) = closingBrace? (braces + 1) ts := by
  rw [closingBrace?.eq_def braces (t :: ts)]
  simp only [ht]

theorem closingBrace?_close {t : Token} (ht : t.kind = .closeBrace) (braces : Nat)
    (ts : List Token) : closingBrace? (braces + 1) (t :: ts) = closingBrace? braces ts := by
  rw [closingBrace?.eq_def (braces + 1) (t :: ts)]
  simp only [ht]

theorem closingBrace?_other {t : Token} (ht : t.kind ≠ .openBrace) (ht' : t.kind ≠ .closeBrace)
    (braces : Nat) (ts : List Token) :
    closingBrace? braces (t :: ts) = closingBrace? braces ts := by
  rw [closingBrace?.eq_def braces (t :: ts)]
  dsimp only
  split <;> first | rfl | contradiction

/-- No brace inside nested tokens closes one before them. -/
theorem closingBrace?_nested {ks : List Token.Kind} (h : Nested ks) {ts : List Token}
    (hts : ts.map Token.kind = ks) (braces : Nat) (us : List Token) :
    closingBrace? braces (ts ++ us) = closingBrace? braces us := by
  induction h generalizing ts braces us with
  | nil => rw [List.map_eq_nil_iff.1 hts, List.nil_append]
  | plain opener closer _ ih =>
    obtain ⟨t, ts, rfl, rfl, hmap⟩ := List.map_eq_cons_iff.1 hts
    have hopen : t.kind ≠ .openBrace := fun hk => by simp [hk, Token.Kind.isOpener] at opener
    have hclose : t.kind ≠ .closeBrace := fun hk => by simp [hk, Token.Kind.isCloser] at closer
    rw [List.cons_append, closingBrace?_other hopen hclose, ih hmap]
  | group pair _ _ ih ih' =>
    obtain ⟨t, zs, rfl, rfl, hmap⟩ := List.map_eq_cons_iff.1 hts
    obtain ⟨xs, zs, rfl, hxs, hmap⟩ := List.map_eq_append_iff.1 hmap
    obtain ⟨u, ys, rfl, rfl, hys⟩ := List.map_eq_cons_iff.1 hmap
    have e : t :: (xs ++ u :: ys) ++ us = t :: (xs ++ u :: (ys ++ us)) := by simp
    rw [e]
    unfold closes at pair
    split at pair
    · next hk hl =>
      rw [closingBrace?_open hk, ih hxs, closingBrace?_close hl, ih' hys]
    · next hk hl =>
      rw [closingBrace?_other (by simp [hk]) (by simp [hk]), ih hxs,
        closingBrace?_other (by simp [hl]) (by simp [hl]), ih' hys]
    · next hk hl =>
      rw [closingBrace?_other (by simp [hk]) (by simp [hk]), ih hxs,
        closingBrace?_other (by simp [hl]) (by simp [hl]), ih' hys]
    · cases pair

/-! ## Entries -/

theorem itemsFrom_skip (cs : List Char) (comment : Option Nat) (ts us : List Token) :
    itemsFrom cs comment ts.length (ts ++ us) = itemsFrom cs comment 0 us := by
  induction ts with
  | nil => rfl
  | cons t ts ih => exact ih

/-- The place after an entry whose value is closed by `closing`, after which `commas` and `tail`
belong to it. -/
def stopAfter (closing : Token) (commas tail : List Token) : Nat :=
  ((closing :: (commas ++ tail)).getLast (List.cons_ne_nil _ _)).stop

/-- The tokens that may follow an entry with or without a comma: a newline or nothing without one,
and anything but a comment with one. -/
def MayFollow (commas after : List Token) : Prop :=
  ∀ t ∈ after.head?, t.kind ≠ .comment ∧ (commas = [] → t.kind = .newline)

/-- A value ends before a token that can end it, or where the tokens end. -/
theorem valueEnd_ends {last : Token} {after : List Token}
    (hafter : ∀ t ∈ after.head?, endsValue t = true) (passed : Nat) :
    valueEnd 0 (some last) passed after = ⟨some last, passed, after⟩ := by
  cases after with
  | nil => rfl
  | cons t after => rw [valueEnd, if_pos ⟨rfl, rfl, hafter t rfl⟩]

/-- A value that nested brackets write ends with the closing bracket. -/
theorem valueEnd_group {k l : Token.Kind} {opening closing : Token} {inside after : List Token}
    (hopening : opening.kind = k) (hinside : Nested (inside.map Token.kind))
    (hclosing : closing.kind = l) (pair : closes k l = true)
    (hafter : ∀ t ∈ after.head?, endsValue t = true) (passed : Nat) :
    valueEnd 0 none passed (opening :: (inside ++ closing :: after)) =
      ⟨some closing, passed + (inside.length + 2), after⟩ := by
  obtain ⟨hopener, hopener', hcloser⟩ := isOpener_of_closes pair
  have hin : depthAfter 0 opening = 1 := by simp [depthAfter, hopening, hopener]
  have hout : depthAfter 1 closing = 0 := by simp [depthAfter, hclosing, hopener', hcloser]
  have hsubstance : isSubstance closing = true := by
    unfold isSubstance
    split
    · next h => simp [← hclosing, h, Token.Kind.isCloser] at hcloser
    · next h => simp [← hclosing, h, Token.Kind.isCloser] at hcloser
    · rfl
  obtain ⟨last, hnested⟩ := valueEnd_nested hinside rfl (by decide : (0 : Int) < 1)
    (if isSubstance opening then some opening else none) (passed + 1) (closing :: after)
  have hlength : passed + 1 + inside.length + 1 = passed + (inside.length + 2) := by omega
  rw [valueEnd, if_neg (by simp), hin, hnested, valueEnd, if_neg (by omega), hout, hsubstance,
    if_pos rfl, hlength]
  exact valueEnd_ends hafter _

theorem entryTail_block {closing : Token} {commas tail after : List Token}
    (hcommas : commas = [] ∨ ∃ t, commas = [t] ∧ t.kind = .comma)
    (htail : (tail = [] ∧ MayFollow commas after) ∨
      ∃ t, tail = [t] ∧ t.kind = .comment ∧ t.line = closing.line) :
    entryTail closing.line closing.stop (commas ++ (tail ++ after)) =
      (stopAfter closing commas tail, commas.length + tail.length) := by
  rcases hcommas with rfl | ⟨u, rfl, hu⟩
  · rcases htail with ⟨rfl, hfollow⟩ | ⟨w, rfl, hw, hline⟩
    · cases after with
      | nil => rfl
      | cons t after =>
        have ht := (hfollow t rfl).2 rfl
        simp [entryTail, stopAfter, ht]
    · simp [entryTail, stopAfter, hw, hline]
  · rcases htail with ⟨rfl, hfollow⟩ | ⟨w, rfl, hw, hline⟩
    · cases after with
      | nil => simp [entryTail, stopAfter, hu]
      | cons t after =>
        have ht : t.kind ≠ .comment := (hfollow t rfl).1
        simp [entryTail, stopAfter, hu]
    · simp [entryTail, stopAfter, hu, hw, hline]

theorem keyOf?_kind {t : Token} {k : String} (h : keyOf? t = some k) :
    t.kind ≠ .newline ∧ t.kind ≠ .comment := by
  constructor <;> intro hk <;> simp [keyOf?, hk] at h

/-- A key, a sign and a value with what follows it are one entry. -/
theorem itemsFrom_assigned (cs : List Char) (comment : Option Nat) {k : String} {stop : Nat}
    {key sign last : Token} {body tail after : List Token} (hkey : keyOf? key = some k)
    (hsign : isAssignment sign = true)
    (hvalue : valueEnd 0 none 0 (body ++ (tail ++ after)) =
      ⟨some last, body.length, tail ++ after⟩)
    (htail : entryTail last.line last.stop (tail ++ after) = (stop, tail.length)) :
    itemsFrom cs comment 0 (key :: sign :: (body ++ (tail ++ after))) =
      .entry ⟨k, key.line, entryStart cs comment key, stop⟩ :: itemsFrom cs none 0 after := by
  have hskip := itemsFrom_skip cs none (sign :: (body ++ tail)) after
  have hlength : (sign :: (body ++ tail)).length = 1 + body.length + tail.length := by
    simp only [List.length_cons, List.length_append]
    omega
  have e : sign :: (body ++ tail) ++ after = sign :: (body ++ (tail ++ after)) := by simp
  rw [hlength, e] at hskip
  rw [itemsFrom.eq_def cs comment 0 (key :: _)]
  dsimp only
  split
  · next h => exact absurd h (keyOf?_kind hkey).1
  · next h => exact absurd h (keyOf?_kind hkey).2
  · simp only [hkey, hsign, if_true, hvalue, htail, hskip]

/-- A key, an equals sign and a nested block are one entry. -/
theorem itemsFrom_entry (cs : List Char) (comment : Option Nat) {k : String}
    {key sign opening closing : Token} {inside commas tail after : List Token}
    (hkey : keyOf? key = some k) (hsign : sign.kind = .equals)
    (hopening : opening.kind = .openBrace) (hinside : Nested (inside.map Token.kind))
    (hclosing : closing.kind = .closeBrace)
    (hcommas : commas = [] ∨ ∃ t, commas = [t] ∧ t.kind = .comma)
    (htail : (tail = [] ∧ MayFollow commas after) ∨
      ∃ t, tail = [t] ∧ t.kind = .comment ∧ t.line = closing.line) :
    itemsFrom cs comment 0
        (key :: sign :: opening :: (inside ++ closing :: (commas ++ (tail ++ after)))) =
      .entry ⟨k, key.line, entryStart cs comment key, stopAfter closing commas tail⟩ ::
        itemsFrom cs none 0 after := by
  have hafter : ∀ t ∈ (commas ++ (tail ++ after)).head?, endsValue t = true := by
    intro t ht
    rcases hcommas with rfl | ⟨u, rfl, hu⟩
    · rcases htail with ⟨rfl, hfollow⟩ | ⟨u, rfl, hu, -⟩
      · simp [endsValue, (hfollow t ht).2 rfl]
      · cases ht
        simp [endsValue, hu]
    · cases ht
      simp [endsValue, hu]
  have hvalue := valueEnd_group hopening hinside hclosing rfl hafter 0
  have htaken := entryTail_block hcommas htail
  have hassign : isAssignment sign = true := by simp [isAssignment, hsign]
  have e : opening :: (inside ++ closing :: (commas ++ (tail ++ after))) =
      (opening :: (inside ++ [closing])) ++ ((commas ++ tail) ++ after) := by simp
  rw [← List.append_assoc] at htaken
  rw [← List.append_assoc] at hvalue
  rw [e]
  refine itemsFrom_assigned cs comment hkey hassign ?_ (htaken.trans (by rw [List.length_append]))
  rw [← e, List.append_assoc, ← List.append_assoc commas, hvalue]
  simp

end InstanceInventory.Document
