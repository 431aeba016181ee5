import InstanceInventory.Calendar.Moment
import InstanceInventory.Number.Reading
import InstanceInventory.Text.Bytes
import InstanceInventory.Text.Lowercase
import InstanceInventory.Yaml.Tag

/-! # YAML scalars

* `Scalar`: a value without parts.
* `Scalar.text`, `Scalar.shown`: a scalar as where a text was expected, and as a part of a larger
  value.
* `Scalar.same`: whether two scalars are the same key.
* `Scalar.read`: the scalar of a tag that a text writes.
-/

namespace InstanceInventory.Yaml
set_option autoImplicit false
open Calendar (Date Time)

/-- A value without parts. -/
inductive Scalar where
  | null
  | bool (b : Bool)
  | number (n : Number)
  | text (s : String)
  | bytes (bs : List UInt8)
  | date (d : Date)
  | time (t : Time)
  deriving DecidableEq, Repr, Inhabited

namespace Scalar

/-! ## Text -/

def shown : Scalar → String
  | .null => "None"
  | .bool true => "True"
  | .bool false => "False"
  | .number n => n.text
  | .text s => Text.quoted s
  | .bytes bs => Text.Bytes.shown bs
  | .date d => d.shown
  | .time t => t.shown

/-- The text of a scalar; a text stands for itself. -/
def asText : Scalar → String
  | .text s => s
  | .date d => d.text
  | .time t => t.text
  | s => s.shown

/-- An integer with more digits than are written. -/
def isLong : Scalar → Bool
  | .number n => n.isLong
  | _ => false

/-- A scalar that says something: not null, false, zero or empty. -/
def isTruthy : Scalar → Bool
  | .null => false
  | .bool b => b
  | .number n => !n.isZero
  | .text s => !s.isEmpty
  | .bytes bs => !bs.isEmpty
  | .date _ | .time _ => true

/-! ## Keys -/

/-- A number or flag as a number; true counts as one and false as zero. -/
def asNumber? : Scalar → Option Number
  | .number n => some n
  | .bool b => some (.int (if b then 1 else 0))
  | _ => none

def same : Scalar → Scalar → Bool
  | .null, .null => true
  | .text a, .text b => a == b
  | .bytes a, .bytes b => a == b
  | .date a, .date b => a == b
  | .time a, .time b => a.same b
  | a, b =>
    match a.asNumber?, b.asNumber? with
    | some m, some n => m.same n
    | _, _ => false

/-! ## Reading -/

/-- A scalar that has no value, for a reason. -/
def lacks {α : Type} (f : ScalarFault) : Except Fault α :=
  .error (.scalar f)

/-- A value, or the fault of none. -/
def orFault {α : Type} (f : ScalarFault) : Option α → Except Fault α
  | some a => .ok a
  | none => .error (.scalar f)

def dropGaps (cs : List Char) : List Char :=
  cs.filter (· != '_')

/-- A character that may stand around a number: a blank other than the information separators. -/
def isPadding (c : Char) : Bool :=
  Text.isBlank c && !(0x1C ≤ c.toNat && c.toNat ≤ 0x1F)

/-- A text without what may stand around a number. -/
def dropPadding (cs : List Char) : List Char :=
  Text.dropEndWhile isPadding (cs.dropWhile isPadding)

/-- The value of a digit of any base up to sixteen. -/
def digitOf? (base : Nat) (c : Char) : Option Nat :=
  let hex? := if Literal.isHexDigit c then some (Literal.hexValue c) else none
  ((Text.digitValue? c).or hex?).filter (· < base)

def digitsIn? (base : Nat) : List Char → Option Nat
  | [] => none
  | c :: cs => (c :: cs).foldlM (fun n c => (digitOf? base c).map (base * n + ·)) 0

/-- The letter after a zero that may stand before the digits of a base. -/
def baseLetters (base : Nat) : List Char :=
  if base = 2 then ['b', 'B'] else if base = 8 then ['o', 'O']
  else if base = 16 then ['x', 'X'] else []

/-- The integer that a text writes in a base, with padding, a sign and the mark of the base. -/
def integerIn? (base : Nat) (cs : List Char) : Option Int :=
  let (negative, cs) := splitSign (dropPadding cs)
  let digits := match cs with
    | zero :: letter :: ds =>
      if Text.digitValue? zero == some 0 && (baseLetters base).contains letter then ds else cs
    | cs => cs
  (digitsIn? base digits).map (Double.signed negative)

/-- The integer that a text without its sign writes. -/
def magnitude (cs : List Char) : Except Fault Int :=
  match cs with
  | [] => lacks .empty
  | '0' :: 'b' :: ds => orFault .noSuchValue (integerIn? 2 ds)
  | '0' :: 'x' :: ds => orFault .noSuchValue (integerIn? 16 ds)
  | ['0'] => .ok 0
  | '0' :: ds => orFault .noSuchValue (integerIn? 8 ('0' :: ds))
  | cs => do
    let places ← (Text.splitWhen (· == ':') cs).mapM fun p =>
      orFault .noSuchValue (integerIn? 10 p)
    return places.foldl (fun n p => 60 * n + p) 0

def readInteger (cs : List Char) : Except Fault Int := do
  let cs := dropGaps cs
  if cs.isEmpty then lacks .empty
  let (negative, cs) := splitSign cs
  let n ← magnitude cs
  return if negative then -n else n

/-- The double that a text writes without base sixty. -/
def readPlace (cs : List Char) : Except Fault Double :=
  orFault .noSuchValue (Double.ofText? (String.ofList (dropPadding cs)))

/-- The value of places in base sixty, the last first; `unit` is the value of a one at the place. -/
def sexagesimalValue (sum : Double) (unit : Nat) : List Double → Except Fault Double
  | [] => .ok sum
  | p :: ps => do
    let weight ← orFault .tooLarge (Double.ofInt? unit)
    sexagesimalValue (sum.add (p.mul weight)) (60 * unit) ps

/-- The double that a text without its sign writes. -/
def realMagnitude (cs : List Char) : Except Fault Double :=
  if cs == ".inf".toList then .ok (.infinite false)
  else if cs == ".nan".toList then .ok .nan
  else if cs.contains ':' then do
    let places ← (Text.splitWhen (· == ':') cs).mapM readPlace
    sexagesimalValue (.zero false) 1 places.reverse
  else readPlace cs

def readReal (cs : List Char) : Except Fault Double := do
  let cs := (Text.lower (String.ofList (dropGaps cs))).toList
  if cs.isEmpty then lacks .empty
  let (negative, cs) := splitSign cs
  let d ← realMagnitude cs
  return if negative then d.neg else d

def readFlag (s : String) : Except Fault Bool :=
  let word := Text.lower s
  if trueWords.contains word then .ok true
  else if falseWords.contains word then .ok false
  else lacks .unknownWord

def readMoment (cs : List Char) : Except Fault Scalar := do
  let m ← orFault .formless (momentForm? (dropNewline cs))
  let date ← orFault .noSuchValue (Date.of? m.year m.month m.day)
  match m.timeOfDay with
  | none => return .date date
  | some (hour, minute, second, fraction) =>
    let micro := Text.decimal ((fraction ++ List.replicate 6 '0').take 6)
    (orFault .noSuchValue (Time.of? date hour minute second micro m.zone)).map .time

def readBytes (cs : List Char) : Except Fault (List UInt8) :=
  if cs.all fun c => c.toNat < 0x80 then
    match Text.Bytes.ofBase64? cs with
    | some bs => .ok bs
    | none => .error .malformed
  else .error .malformed

def read (tag : Tag) (s : String) : Except Fault Scalar :=
  match tag with
  | .null => .ok .null
  | .bool => (readFlag s).map .bool
  | .integer => (readInteger s.toList).map fun n => .number (.int n)
  | .real => (readReal s.toList).map fun d => .number (.real d)
  | .bytes => (readBytes s.toList).map .bytes
  | .moment => readMoment s.toList
  | _ => .ok (.text s)

end Scalar
end InstanceInventory.Yaml
