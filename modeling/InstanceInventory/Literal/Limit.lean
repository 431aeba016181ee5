import InstanceInventory.Fault
import InstanceInventory.Literal.Parser
import InstanceInventory.Literal.Printer

/-! # Literals under the limit on digits

An integer with more than `digitLimit` digits has no text here: where one would have to be written,
or is met in a text, that ends the writing or the reading.

* `Value.holdsLong`: values that hold such an integer.
* `meetsLong`: texts in which one is met before anything that begins no token.
* `scan`, `read`, `readPair`: the tokens, the one value and the one entry of a text.
* `write`, `writeBody`, `writePair`: the texts of a value, of the entries of an object and of an entry.
* `rewrite`: the text of the value that a text holds.
-/

namespace InstanceInventory
set_option autoImplicit false

namespace Value

mutual

/-- Whether an integer with more digits than are written stands in a value. -/
def holdsLong : Value → Bool
  | .number n => n.isLong
  | .list vs => itemsHoldLong vs
  | .object fs => fieldsHoldLong fs
  | _ => false

def itemsHoldLong : List Value → Bool
  | [] => false
  | v :: vs => holdsLong v || itemsHoldLong vs

def fieldsHoldLong : Fields → Bool
  | [] => false
  | (_, v) :: fs => holdsLong v || fieldsHoldLong fs

end

end Value

namespace Literal

/-! ## Reading -/

/-- Whether a token of a kind is an integer written with more digits than are read. Zeros before the
other digits count. -/
def isLongInteger : Token.Kind → Nat → Bool
  | .number (.int _), digits => decide (digitLimit < digits)
  | _, _ => false

def Token.isLong (t : Token) : Bool :=
  isLongInteger t.kind t.text.length

/-- Whether a long integer is met in the rest of a text, on a line and after `skip` characters that
belong to the token before. What begins no token ends the reading before anything after it. -/
def meetsLong (line : Nat) : Nat → List Char → Bool
  | _, [] => false
  | skip + 1, c :: rest => meetsLong (lineAfter line c) skip rest
  | 0, c :: rest =>
    if isGap c then meetsLong (lineAfter line c) 0 rest
    else match lexeme line c rest with
    | .error _ => false
    | .ok (kind, n) =>
      isLongInteger kind (c :: rest.take n).length || meetsLong (lineAfter line c) n rest

/-- What reading a text gives, unless a long integer is met in it. The tokens come before the values:
an error in their arrangement never comes first. -/
def unlessLong {α : Type} (text : String) (result : Except Fault α) :
    Except InstanceInventory.Fault α :=
  if meetsLong 0 0 text.toList then .error .tooManyDigits
  else result.mapError .ofLiteral

/-- The tokens of a text. -/
def scan (text : String) : Except InstanceInventory.Fault (List Token) :=
  unlessLong text (tokenize text)

/-- The one value that a text holds. -/
def read (text : String) : Except InstanceInventory.Fault Value :=
  unlessLong text (parseValue text)

/-- The one entry that a text holds. -/
def readPair (text : String) : Except InstanceInventory.Fault (String × Value) :=
  unlessLong text (parseEntry text)

/-! ## Writing -/

/-- The text of a value at a level. -/
def write (level : Int) (v : Value) : Except InstanceInventory.Fault String :=
  if v.holdsLong then .error .tooManyDigits else .ok (render level v)

/-- The lines of the entries of an object. -/
def writeBody (level : Int) (fields : Fields) : Except InstanceInventory.Fault (List String) :=
  if Value.fieldsHoldLong fields then .error .tooManyDigits else .ok (bodyLines level fields)

/-- The text of an entry. -/
def writePair (level : Int) (key : String) (v : Value) : Except InstanceInventory.Fault String :=
  if v.holdsLong then .error .tooManyDigits else .ok (renderEntry level key v)

/-- The text of the value that a text holds. -/
def rewrite (level : Int) (text : String) : Except InstanceInventory.Fault String := do
  write level (← read text)

end Literal
end InstanceInventory
