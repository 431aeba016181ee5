import InstanceInventory.Number.Basic
import InstanceInventory.Text.Quoted

/-! # Values

* `Value`: what an attribute of a configuration document can hold without being computed, and what
  the provider answers.
* `Value.shown`: a value inside a message.
* `Value.display`: a value as it stands where a text was expected.
* `Value.same`, `Value.less?`: whether two values are equal, and which of two comes first.
-/

namespace InstanceInventory
set_option autoImplicit false

/-- A value that is written out in full. The keys of an object keep their order. -/
inductive Value where
  | null
  | bool (b : Bool)
  | number (n : Number)
  | text (s : String)
  | list (items : List Value)
  | object (fields : List (String × Value))
  deriving Repr, Inhabited

/-- The fields of an object, by their keys. -/
abbrev Fields := List (String × Value)

/-- Why a value cannot be used as it was meant to be. -/
inductive ShapeFault where
  /-- It lacks a field that must be there. -/
  | missingField (name : String)
  /-- It is asked for something that values of its kind do not have. -/
  | unsupported
  /-- It is of a kind that is of no use there. -/
  | unexpectedKind
  deriving DecidableEq, Repr

namespace Value

def ofInt (n : Int) : Value :=
  .number (.int n)

/-- A text as a value, or null when there is none. -/
def ofText? : Option String → Value
  | none => .null
  | some s => .text s

def emptyObject : Value := .object []

def isCollection : Value → Bool
  | .list _ | .object _ => true
  | _ => false

/-! ## Messages -/

mutual

def shown : Value → String
  | .null => "None"
  | .bool true => "True"
  | .bool false => "False"
  | .number n => n.text
  | .text s => Text.quoted s
  | .list items => Text.listing (shownItems items)
  | .object fields => Text.mapping (shownFields fields)

def shownItems : List Value → List String
  | [] => []
  | v :: vs => v.shown :: shownItems vs

def shownFields : List (String × Value) → List (String × String)
  | [] => []
  | (k, v) :: fs => (Text.quoted k, v.shown) :: shownFields fs

end

/-- A value as it stands where a text was expected; a text stands for itself. -/
def display : Value → String
  | .text s => s
  | v => v.shown

/-! ## Presence -/

/-- A value that counts as present: neither null nor false, zero or empty. -/
def isTruthy : Value → Bool
  | .null => false
  | .bool b => b
  | .number n => !n.isZero
  | .text s => !s.isEmpty
  | .list items => !items.isEmpty
  | .object fields => !fields.isEmpty

/-- A value where it counts as present, or else another. -/
def orElse (v other : Value) : Value :=
  if v.isTruthy then v else other

/-! ## Comparison -/

/-- A number or flag as a number; true counts as one and false as zero. -/
def asNumber? : Value → Option Number
  | .number n => some n
  | .bool b => some (.int (if b then 1 else 0))
  | _ => none

mutual

/-- Whether two values are equal. Flags count as numbers, and the order of fields does not
matter. -/
def same : Value → Value → Bool
  | .null, .null => true
  | .text a, .text b => a == b
  | .list as, .list bs => as.length == bs.length && sameItems as bs
  | .object fs, .object gs => fs.length == gs.length && sameFields fs gs
  | a, b =>
    match a.asNumber?, b.asNumber? with
    | some m, some n => m.same n
    | _, _ => false

/-- Whether the items of two lists are equal, as far as the shorter one goes. -/
def sameItems : List Value → List Value → Bool
  | a :: as, b :: bs => a.same b && sameItems as bs
  | _, _ => true

/-- Whether some fields have equals among others. -/
def sameFields : List (String × Value) → List (String × Value) → Bool
  | [], _ => true
  | (k, a) :: fs, gs =>
    (match gs.find? fun g => g.1 == k with
      | some g => a.same g.2
      | none => false) && sameFields fs gs

end

def isText (s : String) (v : Value) : Bool :=
  v.same (.text s)

mutual

/-- Whether a value comes before another: numbers by size, texts by their characters, lists by their
first items that differ. Other values have no order. -/
def less? : Value → Value → Except ShapeFault Bool
  | .text a, .text b => .ok (a < b)
  | .list as, .list bs => lessItems? as bs
  | a, b =>
    match a.asNumber?, b.asNumber? with
    | some m, some n => .ok (m.less n)
    | _, _ => .error .unexpectedKind

/-- Whether a list comes before another. -/
def lessItems? : List Value → List Value → Except ShapeFault Bool
  | [], bs => .ok (!bs.isEmpty)
  | _, [] => .ok false
  | a :: as, b :: bs => if a.same b then lessItems? as bs else a.less? b

end

end Value
end InstanceInventory
