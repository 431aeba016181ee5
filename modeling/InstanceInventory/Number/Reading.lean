import InstanceInventory.Number.Basic
import InstanceInventory.Text.Blank
import InstanceInventory.Text.DecimalDigit

/-! # Reading numbers

* `readInteger?`: an integer as a person types it.
* `Double.ofText?`: a double from decimal text.
-/

namespace InstanceInventory
set_option autoImplicit false

/-! ## Typed integers -/

/-- The value of decimal digits that may be separated by single underscores; `value` holds the
digits read so far, and at least one digit must follow. -/
def readDigits? (value : Nat) : List Char → Option Nat
  | [] => none
  | c :: cs =>
    match Text.digitValue? c with
    | none => none
    | some d =>
      match cs with
      | [] => some (10 * value + d)
      | '_' :: rest => readDigits? (10 * value + d) rest
      | rest => readDigits? (10 * value + d) rest

/-- An integer as a person types it: blanks around it, a sign, and digits of any script, which may not
be too many. -/
def readInteger? (s : String) : Option Int :=
  if digitLimit < s.toList.countP Text.isDecimalDigit then none
  else match Text.trimChars s.toList with
  | '-' :: cs => (readDigits? 0 cs).map fun n => -(n : Int)
  | '+' :: cs => (readDigits? 0 cs).map Int.ofNat
  | cs => (readDigits? 0 cs).map Int.ofNat

/-! ## Doubles -/

/-- An exponent: its letter, a sign and digits; zero where the text is at its end. -/
def readExponent? : List Char → Option Int
  | [] => some 0
  | c :: cs =>
    if c = 'e' ∨ c = 'E' then
      let digits := match cs with
        | '-' :: ds | '+' :: ds => ds
        | ds => ds
      if digits.isEmpty || !digits.all Text.isDecimalDigit then none
      else
        let n : Int := Text.decimal digits
        some (if cs.take 1 = ['-'] then -n else n)
    else none

/-- A decimal without its sign: digits, a fraction and an exponent, with a digit somewhere before
the exponent. -/
def readDecimal? (negative : Bool) (cs : List Char) : Option Double :=
  let whole := cs.takeWhile Text.isDecimalDigit
  let rest := cs.drop whole.length
  let fraction := match rest with
    | '.' :: ds => ds.takeWhile Text.isDecimalDigit
    | _ => []
  let rest := match rest with
    | '.' :: ds => ds.drop fraction.length
    | ds => ds
  if (whole ++ fraction).isEmpty then none
  else (readExponent? rest).map fun e =>
    .ofDecimal negative (Text.decimal (whole ++ fraction)) (e - fraction.length)

def readMagnitude? (negative : Bool) (cs : List Char) : Option Double :=
  if cs = "inf".toList then some (.infinite negative)
  else if cs = "nan".toList then some .nan
  else readDecimal? negative cs

/-- The double nearest to a decimal text with an optional sign; `inf` and `nan` name the values that
are not finite. -/
def Double.ofText? (s : String) : Option Double :=
  match s.toList with
  | '-' :: cs => readMagnitude? true cs
  | '+' :: cs => readMagnitude? false cs
  | cs => readMagnitude? false cs

end InstanceInventory
