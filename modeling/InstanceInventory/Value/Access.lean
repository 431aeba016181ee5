import InstanceInventory.Pairs
import InstanceInventory.Text.Search
import InstanceInventory.Value.Basic

/-! # Access to values

* `Value.field?`, `Value.fieldOr`, `Value.field`: the fields of an object.
* `Value.items`, `Value.first`: what a list holds.
* `Value.asText`, `Value.asNumber`: a text and a number.
-/

namespace InstanceInventory.Value
set_option autoImplicit false

def field? (v : Value) (name : String) : Except ShapeFault (Option Value) :=
  match v with
  | .object fields => .ok (Pairs.get? fields name)
  | _ => .error .unsupported

/-- The field of an object, or another value where there is none. -/
def fieldOr (v : Value) (name : String) (other : Value) : Except ShapeFault Value :=
  (v.field? name).map fun v? => v?.getD other

/-- The field of an object, which must be there. -/
def field (v : Value) (name : String) : Except ShapeFault Value :=
  match v with
  | .object fields =>
    match Pairs.get? fields name with
    | some v => .ok v
    | none => .error (.missingField name)
  | _ => .error .unexpectedKind

/-- Whether an object has a field, a text a part or a list an item of a name. -/
def holds (v : Value) (name : String) : Except ShapeFault Bool :=
  match v with
  | .object fields => .ok (Pairs.get? fields name).isSome
  | .text s => .ok (Text.contains s name)
  | .list vs => .ok (vs.any (isText name))
  | _ => .error .unexpectedKind

/-- The items of a list, the characters of a text or the names of the fields of an object. -/
def items : Value → Except ShapeFault (List Value)
  | .list vs => .ok vs
  | .text s => .ok (s.toList.map fun c => .text (String.ofList [c]))
  | .object fields => .ok (fields.map fun f => .text f.1)
  | _ => .error .unexpectedKind

/-- The items of the list in a field; no items where the field is not there. -/
def fieldItems (v : Value) (name : String) : Except ShapeFault (List Value) := do
  (← v.fieldOr name (.list [])).items

/-- The first item of a list or the first character of a text that is not empty. -/
def first (v : Value) : Except ShapeFault Value :=
  match v with
  | .object _ => .error (.missingField "0")
  | _ => do
    match ← v.items with
    | item :: _ => return item
    | [] => throw .unexpectedKind

/-- A text; nothing else can be taken apart like one. -/
def asText : Value → Except ShapeFault String
  | .text s => .ok s
  | _ => .error .unsupported

/-- A number; true counts as one and false as zero. -/
def asNumber (v : Value) : Except ShapeFault Number :=
  match v.asNumber? with
  | some n => .ok n
  | none => .error .unexpectedKind

def length : Value → Except ShapeFault Nat
  | .text s => .ok s.length
  | .list vs => .ok vs.length
  | .object fields => .ok fields.length
  | _ => .error .unexpectedKind

end InstanceInventory.Value
