/-! # Double-precision numbers

* `Double`: a binary floating-point number of 53 bits, the infinities, and the value that is no
  number.
* `ofRatio`: the double nearest to a quotient; every other way to make a double goes through it.
* `ofDecimal`, `ofInt?`: the double nearest to a decimal, and to an integer when one is in range.
* `neg`, `add`, `mul`, `lessThan`: exact arithmetic followed by one rounding.
-/

namespace InstanceInventory
set_option autoImplicit false

/-- A double: a sign, a whole number of at most 53 bits and a power of two; or one of the values
that are not finite. A finite value of full precision has exactly 53 bits unless its exponent is
the smallest one, so that each value is written in one way. -/
inductive Double where
  | finite (negative : Bool) (mantissa : Nat) (exponent : Int)
  | infinite (negative : Bool)
  | nan
  deriving DecidableEq, Repr, Inhabited

namespace Double

/-! ## Rounding -/

def minExponent : Int := -1074

def maxExponent : Int := 971

def zero (negative : Bool) : Double :=
  .finite negative 0 minExponent

/-- The whole number nearest to a quotient; halfway, the even one. -/
def roundQuotient (num den : Nat) : Nat :=
  let q := num / den
  let twice := 2 * (num % den)
  if den < twice || (twice == den && q % 2 == 1) then q + 1 else q

/-- A quotient divided by a power of two, as numerator and denominator. -/
def shiftRatio (num den : Nat) (e : Int) : Nat × Nat :=
  if 0 ≤ e then (num, den * Nat.pow 2 e.toNat) else (num * Nat.pow 2 (-e).toNat, den)

/-- The exponent at which a positive quotient has 53 bits before the point, at least the smallest
exponent of a double. -/
def exponentFor (num den : Nat) : Int :=
  let guess : Int := Int.ofNat num.log2 - Int.ofNat den.log2 - 52
  let scaled := shiftRatio num den guess
  let e := if scaled.1 < scaled.2 * Nat.pow 2 52 then guess - 1 else guess
  max e minExponent

/-- The double nearest to `num / den` with a sign; halfway, the one with the even mantissa. -/
def ofRatio (negative : Bool) (num den : Nat) : Double :=
  if num = 0 then zero negative
  else
    let e := exponentFor num den
    let scaled := shiftRatio num den e
    let m := roundQuotient scaled.1 scaled.2
    let (m, e) := if m = Nat.pow 2 53 then (Nat.pow 2 52, e + 1) else (m, e)
    if maxExponent < e then .infinite negative else .finite negative m e

def decimalLength (n : Nat) : Nat :=
  (Nat.toDigits 10 n).length

/-- The double nearest to `digits · 10 ^ exponent`. Magnitudes far outside the range of doubles are
decided without writing the power out. -/
def ofDecimal (negative : Bool) (digits : Nat) (exponent : Int) : Double :=
  if digits = 0 then zero negative
  else
    let magnitude := exponent + decimalLength digits
    if 400 < magnitude then .infinite negative
    else if magnitude < -400 then zero negative
    else if 0 ≤ exponent then ofRatio negative (digits * Nat.pow 10 exponent.toNat) 1
    else ofRatio negative digits (Nat.pow 10 (-exponent).toNat)

/-- The double nearest to an integer, if the integer is in the range of doubles. -/
def ofInt? (n : Int) : Option Double :=
  match ofRatio (decide (n < 0)) n.natAbs 1 with
  | .infinite _ => none
  | d => some d

/-! ## Arithmetic -/

def neg : Double → Double
  | .finite s m e => .finite (!s) m e
  | .infinite s => .infinite (!s)
  | .nan => .nan

/-- A signed whole number times a power of two, rounded; `zeroSign` is the sign of a zero. -/
def ofScaled (zeroSign : Bool) (m e : Int) : Double :=
  if m = 0 then zero zeroSign
  else if 0 ≤ e then ofRatio (decide (m < 0)) (m.natAbs * Nat.pow 2 e.toNat) 1
  else ofRatio (decide (m < 0)) m.natAbs (Nat.pow 2 (-e).toNat)

def signed (negative : Bool) (m : Nat) : Int :=
  if negative then -(m : Int) else m

def add : Double → Double → Double
  | .finite s m e, .finite t n f =>
    let low := min e f
    let sum := signed s (m * Nat.pow 2 (e - low).toNat) + signed t (n * Nat.pow 2 (f - low).toNat)
    ofScaled (s && t) sum low
  | .nan, _ | _, .nan => .nan
  | .infinite s, .infinite t => if s = t then .infinite s else .nan
  | .infinite s, .finite .. | .finite .., .infinite s => .infinite s

def mul : Double → Double → Double
  | .finite s m e, .finite t n f =>
    ofScaled (s != t) (signed (s != t) (m * n)) (e + f)
  | .nan, _ | _, .nan => .nan
  | .infinite s, .infinite t => .infinite (s != t)
  | .infinite s, .finite t n _ | .finite s n _, .infinite t =>
    if n = 0 then .nan else .infinite (s != t)

/-- Whether a double is less than an integer; nothing is said of the value that is no number. -/
def lessThanInt (d : Double) (n : Int) : Bool :=
  match d with
  | .finite s m e =>
    if 0 ≤ e then signed s (m * Nat.pow 2 e.toNat) < n
    else signed s m < n * Int.ofNat (Nat.pow 2 (-e).toNat)
  | .infinite s => s
  | .nan => false

/-- Whether a double is less than another; the value that is no number is less than none. -/
def lessThan : Double → Double → Bool
  | .finite s m e, .finite t n f =>
    let low := min e f
    signed s (m * Nat.pow 2 (e - low).toNat) < signed t (n * Nat.pow 2 (f - low).toNat)
  | .infinite s, .infinite t => s && !t
  | .infinite s, .finite .. => s
  | .finite .., .infinite t => !t
  | .nan, _ | _, .nan => false

/-- Whether a double is zero, of either sign. -/
def isZero : Double → Bool
  | .finite _ m _ => m == 0
  | _ => false

/-- The integer that a double equals, if there is one. -/
def toInt? : Double → Option Int
  | .finite s m e =>
    if 0 ≤ e then some (signed s (m * Nat.pow 2 e.toNat))
    else if m % Nat.pow 2 (-e).toNat = 0 then some (signed s (m / Nat.pow 2 (-e).toNat)) else none
  | _ => none

end Double
end InstanceInventory
