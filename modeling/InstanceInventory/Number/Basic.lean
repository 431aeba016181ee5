import InstanceInventory.Number.Shortest

/-! # Numbers

* `Number`: an integer of any size or a double.
* `Number.text`: the text of a number, which reads back as the same number.
* `digitLimit`, `Number.isLong`: how many digits an integer may have to be written or read, and which
  numbers have more.
* `Number.lessThan`, `Number.atMost`: comparison with an integer.
-/

namespace InstanceInventory
set_option autoImplicit false

/-- An integer of any size or a double. -/
inductive Number where
  | int (n : Int)
  | real (d : Double)
  deriving DecidableEq, Repr, Inhabited

/-- The decimal digits of an integer after a minus sign if it is negative. -/
def integerChars (n : Int) : List Char :=
  if n < 0 then '-' :: Nat.toDigits 10 n.natAbs else Nat.toDigits 10 n.natAbs

def integerText (n : Int) : String :=
  String.ofList (integerChars n)

def countText (n : Nat) : String :=
  integerText n

/-- How many decimal digits an integer may have where it is written as text, or read from one. -/
def digitLimit : Nat := 4300

/-- The least whole number with more digits than that. -/
def leastLong : Nat :=
  Nat.pow 10 digitLimit

namespace Number

/-- An integer with more digits than are written. A double has few. -/
def isLong : Number → Bool
  | .int n => decide (leastLong ≤ n.natAbs)
  | .real _ => false

/-- The text of a number, which reads back as the same number. -/
def chars : Number → List Char
  | .int n => integerChars n
  | .real d => d.text.toList

/-- The text of a number, which reads back as the same number. -/
def text (n : Number) : String :=
  String.ofList n.chars

def neg : Number → Number
  | .int n => .int (-n)
  | .real d => .real d.neg

def lessThan : Number → Int → Bool
  | .int n, k => n < k
  | .real d, k => d.lessThanInt k

def less : Number → Number → Bool
  | .int m, .int n => m < n
  | .real d, .int n => d.lessThanInt n
  | .int m, .real d => d.neg.lessThanInt (-m)
  | .real d, .real e => d.lessThan e

/-- Whether two numbers are equal, of whatever kind. -/
def same : Number → Number → Bool
  | .int a, .int b => a == b
  | .int a, .real d | .real d, .int a => d.toInt? == some a
  | .real a, .real b => (a.isZero && b.isZero) || a == b

def isZero : Number → Bool
  | .int n => n == 0
  | .real d => d.isZero

def toDouble? : Number → Option Double
  | .int n => Double.ofInt? n
  | .real d => some d

/-- Whether a number is a number at all: not the double that is none. -/
def isOrdered : Number → Bool
  | .real .nan => false
  | _ => true

def greaterThan : Number → Int → Bool
  | .int n, k => k < n
  | .real d, k => d.neg.lessThanInt (-k)

def atMost (n : Number) (k : Int) : Bool :=
  n.isOrdered && !n.greaterThan k

def atLeast (n : Number) (k : Int) : Bool :=
  n.isOrdered && !n.lessThan k

end Number

end InstanceInventory
