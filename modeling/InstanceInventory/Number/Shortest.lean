import InstanceInventory.Number.Double

/-! # Decimal forms of doubles

* `shortest`: the decimal with the fewest digits that reads back as the double, the nearest of
  those.
* `roundedRatio`: the decimal with a given number of digits that is nearest to a quotient.
* `text`: the shortest decimal as text, positional for exponents from -4 to 15.
* `general`: six significant digits as text, without zeros at the end.
-/

namespace InstanceInventory
set_option autoImplicit false

/-- A positive decimal `digits · 10 ^ exponent`. -/
structure Decimal where
  digits : Nat
  exponent : Int
  deriving DecidableEq, Repr

namespace Decimal

/-- The digits without the zeros at the end. -/
def significant (d : Decimal) : List Char :=
  ((Nat.toDigits 10 d.digits).reverse.dropWhile (· == '0')).reverse

/-- The place of the decimal point, counted from before the first digit. -/
def pointPlace (d : Decimal) : Int :=
  Int.ofNat (Double.decimalLength d.digits) + d.exponent

end Decimal

namespace Double

/-! ## Digits -/

/-- A positive double as a quotient. -/
def ratio (m : Nat) (e : Int) : Nat × Nat :=
  if 0 ≤ e then (m * Nat.pow 2 e.toNat, 1) else (m, Nat.pow 2 (-e).toNat)

/-- The exponent of the first decimal digit of a positive quotient. -/
def leadingExponent (num den : Nat) : Int :=
  if den ≤ num then Int.ofNat (decimalLength (num / den)) - 1
  else -(Int.ofNat (decimalLength ((den + num - 1) / num - 1)))

/-- A quotient divided by a power of ten. -/
def shiftDecimal (num den : Nat) (e : Int) : Nat × Nat :=
  if 0 ≤ e then (num, den * Nat.pow 10 e.toNat) else (num * Nat.pow 10 (-e).toNat, den)

/-- The decimal with `n` digits nearest to a positive quotient; halfway, the one with the even last
digit. -/
def roundedRatio (num den n : Nat) : Decimal :=
  let e := leadingExponent num den - (Int.ofNat n - 1)
  let scaled := shiftDecimal num den e
  ⟨roundQuotient scaled.1 scaled.2, e⟩

/-- The other decimal with the same last place that encloses a positive quotient. -/
def otherNeighbour (num den : Nat) (d : Decimal) : Decimal :=
  let scaled := shiftDecimal num den d.exponent
  if d.digits = scaled.1 / scaled.2 then ⟨d.digits + 1, d.exponent⟩ else ⟨d.digits - 1, d.exponent⟩

/-- Whether a decimal reads back as a positive double. -/
def readsBackAs (m : Nat) (e : Int) (d : Decimal) : Bool :=
  ofDecimal false d.digits d.exponent == .finite false m e

/-- The first decimal, of those with `n` digits, one digit more and so on, that reads back as a
positive double. Of the two decimals that enclose the double the nearer comes first; seventeen
digits always suffice. -/
def shortestFrom (m : Nat) (e : Int) (n : Nat) : Nat → Decimal
  | 0 => roundedRatio (ratio m e).1 (ratio m e).2 17
  | tries + 1 =>
    let near := roundedRatio (ratio m e).1 (ratio m e).2 n
    let far := otherNeighbour (ratio m e).1 (ratio m e).2 near
    if readsBackAs m e near then near
    else if readsBackAs m e far then far
    else shortestFrom m e (n + 1) tries

/-- The decimal with the fewest digits that reads back as the positive double `m · 2 ^ e`. -/
def shortest (m : Nat) (e : Int) : Decimal :=
  shortestFrom m e 1 16

/-! ## Text -/

/-- How the exponent form writes its exponent: a sign and at least two digits. -/
def exponentText (x : Int) : List Char :=
  let digits := Nat.toDigits 10 x.natAbs
  'e' :: (if x < 0 then '-' else '+') :: (if digits.length < 2 then '0' :: digits else digits)

/-- Digits with a decimal point at a place; `whole` closes a number that has no fraction. -/
def positional (digits : List Char) (place : Int) (whole : List Char) : List Char :=
  if place ≤ 0 then '0' :: '.' :: (List.replicate (-place).toNat '0' ++ digits)
  else if Int.ofNat digits.length ≤ place then
    digits ++ List.replicate (place.toNat - digits.length) '0' ++ whole
  else digits.take place.toNat ++ '.' :: digits.drop place.toNat

/-- One digit, a point before the others, and an exponent. -/
def scientific (digits : List Char) (place : Int) : List Char :=
  (match digits with
    | d :: rest@(_ :: _) => d :: '.' :: rest
    | ds => ds) ++ exponentText (place - 1)

def withSign (negative : Bool) (cs : List Char) : List Char :=
  if negative then '-' :: cs else cs

/-- The shortest text that reads back, always with a point or an exponent. -/
def text : Double → String
  | .nan => "nan"
  | .infinite s => String.ofList (withSign s "inf".toList)
  | .finite s m e =>
    if m = 0 then String.ofList (withSign s "0.0".toList)
    else
      let d := shortest m e
      String.ofList <| withSign s <|
        if -4 < d.pointPlace && d.pointPlace ≤ 16 then
          positional d.significant d.pointPlace ['.', '0']
        else scientific d.significant d.pointPlace

/-- Six significant digits without zeros at the end. -/
def general : Double → String
  | .nan => "nan"
  | .infinite s => String.ofList (withSign s "inf".toList)
  | .finite s m e =>
    if m = 0 then String.ofList (withSign s ['0'])
    else
      let d := roundedRatio (ratio m e).1 (ratio m e).2 6
      String.ofList <| withSign s <|
        if -4 < d.pointPlace && d.pointPlace ≤ 6 then positional d.significant d.pointPlace []
        else scientific d.significant d.pointPlace

end Double
end InstanceInventory
