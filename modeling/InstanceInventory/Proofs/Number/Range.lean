import InstanceInventory.Number.Basic
import Mathlib.Algebra.Order.Ring.Int
import Mathlib.Tactic.Ring

/-! # The range of doubles

* `Double.exponentFor_one`: the exponent at which an integer has 53 bits before the point.
* `Double.ofInt?_eq_none_iff`: which integers are beyond the range of doubles.
* `Double.IsAtLeastZero`: a double is zero or positive. An integer that is at least zero makes such
  a double, and what is not less than zero is one, or no number at all.
-/

namespace InstanceInventory.Double
set_option autoImplicit false

/-! ## Integers beyond the range -/

theorem pow_log2_le {n : Nat} (hn : n ≠ 0) : 2 ^ n.log2 ≤ n :=
  (Nat.le_log2 hn).1 le_rfl

/-- The last bit but fifty-two of an integer leaves 53 bits before the point. -/
theorem pow_le_shiftRatio {n : Nat} (hn : n ≠ 0) :
    (shiftRatio n 1 ((n.log2 : Int) - 52)).2 * 2 ^ 52 ≤ (shiftRatio n 1 ((n.log2 : Int) - 52)).1 := by
  have hlog := pow_log2_le hn
  unfold shiftRatio
  split
  · obtain ⟨g, hg⟩ : ∃ g, n.log2 = g + 52 := ⟨n.log2 - 52, by omega⟩
    rw [hg, pow_add] at hlog
    simpa [hg] using hlog
  · obtain ⟨g, hg⟩ : ∃ g, 52 = n.log2 + g := ⟨52 - n.log2, by omega⟩
    have hshift : (-((n.log2 : Int) - 52)).toNat = g := by omega
    rw [hshift, one_mul, hg, pow_add]
    exact Nat.mul_le_mul_right _ hlog

/-- An integer is scaled by the exponent of its last bit but fifty-two. -/
theorem exponentFor_one {n : Nat} (hn : n ≠ 0) : exponentFor n 1 = (n.log2 : Int) - 52 := by
  have hguess : Int.ofNat n.log2 - Int.ofNat (Nat.log2 1) - 52 = (n.log2 : Int) - 52 := by
    have h1 : Nat.log2 1 = 0 := by decide
    rw [h1]
    simp
  have hbits : ¬ (shiftRatio n 1 ((n.log2 : Int) - 52)).1 <
      (shiftRatio n 1 ((n.log2 : Int) - 52)).2 * Nat.pow 2 52 :=
    (pow_le_shiftRatio hn).not_gt
  rw [exponentFor, hguess, if_neg hbits, max_eq_left]
  unfold minExponent
  omega

/-- A quotient below an even number is rounded to that number where it is at most half below it. -/
theorem roundQuotient_eq_iff {n h c : Nat} (hn : n < 2 * c * (2 * h)) :
    roundQuotient n (2 * h) = 2 * c ↔ 2 * c * (2 * h) ≤ n + h := by
  have hdiv := Nat.div_add_mod n (2 * h)
  have hmod : n % (2 * h) < 2 * h := Nat.mod_lt _ (by by_contra; simp_all)
  have hlt : n / (2 * h) < 2 * c := Nat.div_lt_of_lt_mul (by rwa [mul_comm] at hn)
  unfold roundQuotient
  generalize n / (2 * h) = q at *
  generalize n % (2 * h) = r at *
  simp only [Bool.or_eq_true, Bool.and_eq_true, decide_eq_true_eq, beq_iff_eq]
  rcases eq_or_lt_of_le (Nat.succ_le_of_lt hlt) with hlast | hbelow
  · have hproduct : 2 * c * (2 * h) = 2 * h * q + 2 * h := by
      rw [← hlast, Nat.succ_mul]
      ring
    rw [hproduct, ← hdiv]
    split
    · omega
    · omega
  · have hfar : 2 * h * (q + 2) ≤ 2 * h * (2 * c) := Nat.mul_le_mul_left _ hbelow
    rw [mul_add] at hfar
    rw [mul_comm (2 * c), ← hdiv]
    split
    · omega
    · omega

theorem shiftRatio_natCast (num den e : Nat) :
    shiftRatio num den (e : Int) = (num, den * 2 ^ e) := by
  rw [shiftRatio, if_pos (Int.natCast_nonneg e), Int.toNat_natCast]
  rfl

/-- A quotient is rounded to a mantissa, which is written with one bit less where it has come to the
next power of two. -/
theorem ofRatio_of_ne {s : Bool} {num den m : Nat} {e : Int} (hnum : num ≠ 0)
    (he : exponentFor num den = e)
    (hm : roundQuotient (shiftRatio num den e).1 (shiftRatio num den e).2 = m) :
    ofRatio s num den =
      if m = 2 * 2 ^ 52 then if maxExponent < e + 1 then .infinite s else .finite s (2 ^ 52) (e + 1)
      else if maxExponent < e then .infinite s else .finite s m e := by
  have hcarry : Nat.pow 2 53 = 2 * 2 ^ 52 := pow_succ' 2 52
  rw [ofRatio, if_neg hnum, he, hcarry]
  dsimp only
  rw [hm]
  by_cases htop : m = 2 * 2 ^ 52
  · rw [if_pos htop, if_pos htop]
    rfl
  · rw [if_neg htop, if_neg htop]

/-- An integer is rounded to an infinite double where its exponent is beyond the greatest one, or is
the greatest one and the mantissa is rounded up to the next power of two. -/
theorem ofRatio_one_eq_infinite {s : Bool} {n : Nat} (hn : n ≠ 0) :
    ofRatio s n 1 = .infinite s ↔ 1023 < n.log2 ∨ n.log2 = 1023 ∧
      roundQuotient (shiftRatio n 1 ((n.log2 : Int) - 52)).1
        (shiftRatio n 1 ((n.log2 : Int) - 52)).2 = 2 * 2 ^ 52 := by
  rw [ofRatio_of_ne hn (exponentFor_one hn) rfl, maxExponent]
  generalize roundQuotient _ _ = m
  generalize 2 * 2 ^ 52 = carry
  split
  · split
    · simp
      omega
    · simp
      omega
  · split
    · simp
      omega
    · simp
      omega

/-- An integer is rounded to an infinite double from half a unit of the greatest exponent below the
next power of two. -/
theorem ofRatio_one_eq_infinite_iff (s : Bool) (n : Nat) :
    ofRatio s n 1 = .infinite s ↔ 2 ^ 1024 ≤ n + 2 ^ 970 := by
  have hhalf : 0 < 2 ^ 970 := pow_pos two_pos 970
  have hunit : 2 ^ 971 = 2 * 2 ^ 970 := by
    rw [pow_succ']
  have htop : 2 ^ 1024 = 2 * 2 ^ 52 * 2 ^ 971 := by
    rw [← pow_succ', ← pow_add]
  have hlow : 2 ^ 1024 = 2 * 2 ^ 1023 := by
    rw [pow_succ']
  have hbits : ∀ k, n ≠ 0 → (k ≤ n.log2 ↔ 2 ^ k ≤ n) := fun _ hn => Nat.le_log2 hn
  have hbelow := hbits 1023
  have habove := hbits 1024
  have hshift : n.log2 = 1023 → shiftRatio n 1 ((n.log2 : Int) - 52) = (n, 2 ^ 971) := by
    intro hlog
    have h971 : (n.log2 : Int) - 52 = (971 : Nat) := by omega
    rw [h971, shiftRatio_natCast, one_mul]
  -- The powers become names, so that nothing writes them out.
  generalize 2 ^ 970 = half at *
  generalize 2 ^ 971 = unit at *
  generalize 2 ^ 1023 = low at *
  generalize 2 ^ 1024 = top at *
  subst hunit
  rcases eq_or_ne n 0 with rfl | hn
  · exact iff_of_false nofun (by omega)
  rw [ofRatio_one_eq_infinite hn]
  rcases lt_trichotomy n.log2 1023 with hlog | hlog | hlog
  · omega
  · have hlt : n < 2 * 2 ^ 52 * (2 * half) := by omega
    rw [hshift hlog, roundQuotient_eq_iff hlt]
    omega
  · omega

/-- A quotient is rounded to a double of its own sign. -/
theorem ofRatio_cases (s : Bool) (num den : Nat) :
    (∃ m e, ofRatio s num den = .finite s m e) ∨ ofRatio s num den = .infinite s := by
  rcases eq_or_ne num 0 with rfl | hnum
  · exact .inl ⟨0, minExponent, rfl⟩
  · rw [ofRatio_of_ne hnum rfl rfl]
    generalize 2 * 2 ^ 52 = carry
    split
    · split
      · exact .inr rfl
      · exact .inl ⟨_, _, rfl⟩
    · split
      · exact .inr rfl
      · exact .inl ⟨_, _, rfl⟩

theorem ofInt?_eq_none (n : Int) :
    ofInt? n = none ↔ ofRatio (decide (n < 0)) n.natAbs 1 = .infinite (decide (n < 0)) := by
  rw [ofInt?]
  rcases ofRatio_cases (decide (n < 0)) n.natAbs 1 with ⟨m, e, hfinite⟩ | hinfinite
  · rw [hfinite]
    exact iff_of_false nofun nofun
  · rw [hinfinite]
    exact iff_of_true rfl rfl

theorem ofInt?_eq_none_iff (n : Int) : ofInt? n = none ↔ 2 ^ 1024 ≤ n.natAbs + 2 ^ 970 :=
  (ofInt?_eq_none n).trans (ofRatio_one_eq_infinite_iff _ _)

/-- An integer of at most 1023 bits is in the range of doubles. -/
theorem ofInt?_ne_none {n : Int} (hn : 0 ≤ n) (hlt : n < 2 ^ 1023) : ofInt? n ≠ none := by
  rw [Ne, ofInt?_eq_none_iff]
  have hcast : ((2 ^ 1023 : Nat) : Int) = 2 ^ 1023 := Nat.cast_pow 2 1023
  have hhalf : 2 ^ 970 ≤ 2 ^ 1023 := pow_le_pow_right₀ one_le_two (by decide)
  have htop : 2 ^ 1024 = 2 * 2 ^ 1023 := by
    rw [pow_succ']
  rw [htop]
  rw [← hcast] at hlt
  generalize 2 ^ 970 = half at *
  generalize 2 ^ 1023 = low at *
  omega

/-! ## Signs -/

/-- A double that is zero, of either sign, or positive. -/
def IsAtLeastZero : Double → Prop
  | .finite negative m _ => negative = false ∨ m = 0
  | .infinite negative => negative = false
  | .nan => False

theorem ofInt?_isAtLeastZero {n : Int} {d : Double} (h : ofInt? n = some d) (hn : 0 ≤ n) :
    d.IsAtLeastZero := by
  have hsign : decide (n < 0) = false := decide_eq_false hn.not_gt
  rw [ofInt?, hsign] at h
  rcases ofRatio_cases false n.natAbs 1 with ⟨m, e, hfinite⟩ | hinfinite
  · rw [hfinite] at h
    exact Option.some.inj h ▸ .inl rfl
  · rw [hinfinite] at h
    cases h

/-- What is not less than zero is at least zero, or no number. -/
theorem lessThanInt_zero (d : Double) :
    d.lessThanInt 0 = false ↔ d = .nan ∨ d.IsAtLeastZero := by
  cases d with
  | finite negative m e =>
    cases negative with
    | false => simp [lessThanInt, IsAtLeastZero, signed]
    | true => simp [lessThanInt, IsAtLeastZero, signed]
  | infinite negative => simp [lessThanInt, IsAtLeastZero]
  | nan => simp [lessThanInt]

end InstanceInventory.Double
