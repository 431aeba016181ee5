import InstanceInventory.Literal.Lexer
import InstanceInventory.Yaml.Cursor

/-! # YAML tags

* `Tag`: what a node stands for.
* `Tag.ofName`: the tag of a full name.
* `Tag.ofPlain`: the tag that the text of a scalar without quotes stands for by its form.

Integers may be written in base two, eight, ten and sixteen, and both kinds of number in base sixty
with colons. A scalar can have the form of a value that does not exist, such as a thirteenth month.
-/

namespace InstanceInventory.Yaml
set_option autoImplicit false

/-- What a node stands for. A merge and a default value are keys of a mapping. -/
inductive Tag where
  | null | bool | integer | real | bytes | moment | text
  | sequence | orderedPairs | set | mapping
  | merge | defaultValue
  /-- A tag that nothing is known about. -/
  | other
  deriving DecidableEq, Repr, Inhabited

/-! ## Names -/

/-- What begins the full name of a tag of the core language. -/
def corePrefix : String := "tag:yaml.org,2002:"

def coreTags : List (String × Tag) :=
  [("null", .null), ("bool", .bool), ("int", .integer), ("float", .real), ("binary", .bytes),
    ("timestamp", .moment), ("str", .text), ("seq", .sequence), ("omap", .orderedPairs),
    ("pairs", .orderedPairs), ("set", .set), ("map", .mapping), ("merge", .merge),
    ("value", .defaultValue)]

def Tag.ofName (name : String) : Tag :=
  ((coreTags.find? fun t => corePrefix ++ t.1 == name).map Prod.snd).getD .other

def Tag.isScalar : Tag → Bool
  | .null | .bool | .integer | .real | .bytes | .moment | .text => true
  | _ => false

/-! ## Words -/

def trueWords : List String :=
  ["yes", "Yes", "YES", "true", "True", "TRUE", "on", "On", "ON"]

def falseWords : List String :=
  ["no", "No", "NO", "false", "False", "FALSE", "off", "Off", "OFF"]

def nullWords : List String :=
  ["~", "null", "Null", "NULL"]

/-! ## Digits -/

/-- Whether a text holds characters of a class only, and at least one. -/
def isRun (p : Char → Bool) (cs : List Char) : Bool :=
  !cs.isEmpty && cs.all p

def isDigitOrGap (c : Char) : Bool :=
  c.isDigit || c == '_'

/-- The sign of a number, as whether it is negative, and what follows. -/
def splitSign : List Char → Bool × List Char
  | '-' :: cs => (true, cs)
  | '+' :: cs => (false, cs)
  | cs => (false, cs)

/-- A digit from zero to five, if there is one, and a digit: a place of base sixty. -/
def isSexagesimalPlace : List Char → Bool
  | [b] => b.isDigit
  | [a, b] => '0' ≤ a && a ≤ '5' && b.isDigit
  | _ => false

/-- Whether a text is a number in base sixty: at least two places with colons between them, of
which the first begins with a digit that satisfies `p`. -/
def isSexagesimal (p : Char → Bool) (cs : List Char) : Bool :=
  match Text.splitWhen (· == ':') cs with
  | first :: places@(_ :: _) =>
    first.head?.any p && first.all isDigitOrGap && places.all isSexagesimalPlace
  | _ => false

/-! ## Numbers -/

def isIntegerForm (cs : List Char) : Bool :=
  match cs with
  | '0' :: 'b' :: ds => isRun (fun c => c == '0' || c == '1' || c == '_') ds
  | '0' :: 'x' :: ds => isRun (fun c => Literal.isHexDigit c || c == '_') ds
  | '0' :: ds => ds.all fun c => ('0' ≤ c && c ≤ '7') || c == '_'
  | c :: ds =>
    c.isDigit && (ds.all isDigitOrGap || isSexagesimal (fun c => '1' ≤ c && c ≤ '9') (c :: ds))
  | [] => false

/-- Whether a text is empty or an exponent with a sign. -/
def isExponent : List Char → Bool
  | [] => true
  | e :: sign :: ds =>
    (e == 'e' || e == 'E') && (sign == '-' || sign == '+') && isRun Char.isDigit ds
  | _ => false

/-- Whether a text without a sign is digits, a point, digits and an exponent. -/
def isDecimalForm (cs : List Char) : Bool :=
  cs.head?.any Char.isDigit &&
    match cs.dropWhile isDigitOrGap with
    | '.' :: rest => isExponent (rest.dropWhile isDigitOrGap)
    | _ => false

/-- Whether a text is a point, a digit, digits and an exponent. -/
def isFractionForm : List Char → Bool
  | '.' :: d :: rest => d.isDigit && isExponent (rest.dropWhile isDigitOrGap)
  | _ => false

/-- Whether a text without a sign is a number in base sixty whose last place has a point. -/
def isSexagesimalReal (cs : List Char) : Bool :=
  let whole := cs.takeWhile (· != '.')
  match cs.drop whole.length with
  | '.' :: fraction => fraction.all isDigitOrGap && isSexagesimal Char.isDigit whole
  | _ => false

def isRealForm (cs : List Char) : Bool :=
  let unsigned := (splitSign cs).2
  [".nan", ".NaN", ".NAN"].contains (String.ofList cs) ||
    [".inf", ".Inf", ".INF"].contains (String.ofList unsigned) ||
    isFractionForm cs || isDecimalForm unsigned || isSexagesimalReal unsigned

/-! ## Dates and times -/

/-- The parts of a date or a time as they are written. A date has no time of day. The zone is the
distance from universal time in minutes. -/
structure MomentForm where
  year : Nat
  month : Nat
  day : Nat
  /-- The hour, minute and second, and the digits after the point. -/
  timeOfDay : Option (Nat × Nat × Nat × List Char) := none
  zone : Option Int := none

/-- Between `least` and `most` digits at the head of a text, and what follows. -/
def digits? (least most : Nat) (cs : List Char) : Option (Nat × List Char) :=
  let ds := (cs.take most).takeWhile Char.isDigit
  if ds.length < least then none else some (Text.decimal ds, cs.drop ds.length)

/-- What follows a given character at the head of a text. -/
def after? (c : Char) : List Char → Option (List Char)
  | [] => none
  | x :: cs => if x == c then some cs else none

/-- The distance from universal time at the end of a time; without one the time stands by itself. -/
def zoneForm? (cs : List Char) : Option (Option Int) :=
  match cs.dropWhile isWhite with
  | [] => if cs.isEmpty then some none else none
  | ['Z'] => some (some 0)
  | sign :: rest => do
    if sign != '-' && sign != '+' then none
    let (hours, rest) ← digits? 1 2 rest
    let minutes ← match rest with
      | [] => some 0
      | ':' :: ds => do
        let (minutes, ds) ← digits? 2 2 ds
        if ds.isEmpty then some minutes else none
      | _ => none
    let distance : Int := 60 * hours + minutes
    return some (if sign == '-' then -distance else distance)

/-- The parts of a date or a time, if a text has the form of one. -/
def momentForm? (cs : List Char) : Option MomentForm := do
  let (year, cs) ← digits? 4 4 cs
  let (month, cs) ← digits? 1 2 (← after? '-' cs)
  let (day, cs) ← digits? 1 2 (← after? '-' cs)
  let date : MomentForm := { year, month, day }
  match cs with
  | [] => return date
  | c :: rest =>
    if !(c == 'T' || c == 't' || isWhite c) then none
    let cs := if isWhite c then rest.dropWhile isWhite else rest
    let (hour, cs) ← digits? 1 2 cs
    let (minute, cs) ← digits? 2 2 (← after? ':' cs)
    let (second, cs) ← digits? 2 2 (← after? ':' cs)
    let (fraction, cs) := match cs with
      | '.' :: ds => (ds.takeWhile Char.isDigit, ds.dropWhile Char.isDigit)
      | cs => ([], cs)
    let zone ← zoneForm? cs
    return { date with timeOfDay := some (hour, minute, second, fraction), zone }

/-- Whether a text has the form of a date or a time; a date by itself has all its digits. -/
def isMomentForm (cs : List Char) : Bool :=
  (momentForm? cs).any fun m => m.timeOfDay.isSome || cs.length == 10

/-! ## Plain scalars -/

/-- A text without the newline at its end, which no form minds. -/
def dropNewline (cs : List Char) : List Char :=
  if cs.getLast? == some '\n' then cs.dropLast else cs

/-- The tag that the text of a scalar without quotes stands for by its form. -/
def Tag.ofPlain (s : String) : Tag :=
  if s.isEmpty then .null
  else
    let cs := dropNewline s.toList
    let word := String.ofList cs
    if trueWords.contains word || falseWords.contains word then .bool
    else if isRealForm cs then .real
    else if isIntegerForm (splitSign cs).2 then .integer
    else if word == "<<" then .merge
    else if nullWords.contains word then .null
    else if isMomentForm cs then .moment
    else if word == "=" then .defaultValue
    else if word == "!" || word == "&" || word == "*" then .other
    else .text

end InstanceInventory.Yaml
