import InstanceInventory.Value.Basic
import InstanceInventory.Yaml.Scalar

/-! # YAML values

* `Value`: what a YAML document says. Its collections are kept in a store and named by their places,
  so that several parts of a value, and a collection itself, can refer to one collection.
* `Value.form`: a value with its parts as values.
* `Value.asText`: the text of a value, as where a text was expected.
* `Value.writesLong`: whether an integer with more digits than are written stands in that text.
* `Value.ofPlain`: a value without collections in several places.
-/

namespace InstanceInventory.Yaml
set_option autoImplicit false

/-- A part of a value: a scalar, or the place of a collection. -/
inductive Part where
  | scalar (s : Scalar)
  | place (i : Nat)
  deriving Repr, Inhabited

/-- A collection of parts. A pair is an item of a list of ordered pairs. -/
inductive Collection where
  | list (items : List Part)
  | pair (first second : Part)
  | set (members : List Scalar)
  | mapping (entries : List (Scalar × Part))
  deriving Repr, Inhabited

abbrev Collections := Array Collection

/-- What a document says. -/
structure Value where
  part : Part
  store : Collections := #[]
  deriving Repr, Inhabited

/-- A value with its parts as values. -/
inductive Form where
  | scalar (s : Scalar)
  | list (items : List Value)
  | pair (first second : Value)
  | set (members : List Scalar)
  | mapping (entries : List (Scalar × Value))

namespace Value

def ofScalar (s : Scalar) : Value :=
  { part := .scalar s }

def ofText (s : String) : Value :=
  ofScalar (.text s)

def null : Value :=
  ofScalar .null

/-- A value with its parts as values. A place outside of the store holds nothing. -/
def form (v : Value) : Form :=
  let part := fun p : Part => (⟨p, v.store⟩ : Value)
  match v.part with
  | .scalar s => .scalar s
  | .place i =>
    match v.store[i]? with
    | some (.list items) => .list (items.map part)
    | some (.pair a b) => .pair (part a) (part b)
    | some (.set members) => .set members
    | some (.mapping entries) => .mapping (entries.map fun e => (e.1, part e.2))
    | none => .scalar .null

def isNull (v : Value) : Bool :=
  v.form matches .scalar .null

/-- A value that says something: not null, false, zero or empty. -/
def isTruthy (v : Value) : Bool :=
  match v.form with
  | .scalar s => s.isTruthy
  | .list items => !items.isEmpty
  | .pair .. => true
  | .set members => !members.isEmpty
  | .mapping entries => !entries.isEmpty

/-! ## Sets -/

/-- The whole number that a scalar is; true counts as one and false as zero. -/
def wholeNumber? (s : Scalar) : Option Int :=
  match s.asNumber? with
  | some (.int n) => some n
  | some (.real d) => d.toInt?
  | none => none

/-- The number of places among which the members of a set stand: a power of two, eight or more than
twice the number of members. -/
def setPlaces (count : Nat) : Nat :=
  if count ≤ 4 then 8 else Nat.pow 2 (Nat.log2 (2 * count) + 1)

/-- The members of a set in the order in which they are shown. Whole numbers stand by their
remainders, and other members as they were given. -/
def shownOrder (members : List Scalar) : List Scalar :=
  let place := fun (s : Scalar) => (wholeNumber? s).getD 0 % (setPlaces members.length : Int)
  if members.all fun s => (wholeNumber? s).isSome then
    members.mergeSort fun a b => decide (place a ≤ place b)
  else members

/-! ## Text -/

/-- A collection of parts that are shown. A pair stands between parentheses, and a set is written as
the keys of a mapping; an empty one would be a mapping. -/
def showCollection (part : Part → String) : Collection → String
  | .list items => Text.listing (items.map part)
  | .pair a b => "(" ++ part a ++ ", " ++ part b ++ ")"
  | .set members =>
    if members.isEmpty then "set()"
    else "\x7b" ++ ", ".intercalate ((shownOrder members).map Scalar.shown) ++ "\x7d"
  | .mapping entries => Text.mapping (entries.map fun e => (e.1.shown, part e.2))

/-- What stands for a collection inside itself. -/
def ellipsis : Collection → String
  | .list _ => "[...]"
  | .pair .. => "(...)"
  | .set _ | .mapping _ => "\x7b...\x7d"

/-- A part of a larger value; `around` holds the places that it is shown inside of, which is why
there are no more rounds than places. -/
def shownFrom (store : Collections) (around : List Nat) : Nat → Part → String
  | _, .scalar s => s.shown
  | 0, .place _ => ""
  | rounds + 1, .place i =>
    match store[i]? with
    | none => Scalar.null.shown
    | some c =>
      if around.contains i then ellipsis c
      else showCollection (shownFrom store (i :: around) rounds) c

def shown (v : Value) : String :=
  shownFrom v.store [] (v.store.size + 1) v.part

/-- The text of a value; a text stands for itself. -/
def asText (v : Value) : String :=
  match v.part with
  | .scalar s => s.asText
  | .place _ => v.shown

/-- Whether a part that is shown of a collection writes a long integer. -/
def collectionWritesLong (part : Part → Bool) : Collection → Bool
  | .list items => items.any part
  | .pair a b => part a || part b
  | .set members => members.any Scalar.isLong
  | .mapping entries => entries.any fun e => e.1.isLong || part e.2

/-- Whether a part of a larger value writes a long integer, inside of the places `around`. -/
def writesLongFrom (store : Collections) (around : List Nat) : Nat → Part → Bool
  | _, .scalar s => s.isLong
  | 0, .place _ => false
  | rounds + 1, .place i =>
    match store[i]? with
    | none => false
    | some c =>
      !around.contains i && collectionWritesLong (writesLongFrom store (i :: around) rounds) c

/-- Whether an integer with more digits than are written stands in the text of a value. -/
def writesLong (v : Value) : Bool :=
  writesLongFrom v.store [] (v.store.size + 1) v.part

/-! ## Keys -/

/-- Entries in which a key has a given value; a key that is there keeps its place. -/
def put {α : Type} (key : Scalar) (value : α) : List (Scalar × α) → List (Scalar × α)
  | [] => [(key, value)]
  | e :: es => if e.1.same key then (e.1, value) :: es else e :: put key value es

def getText? {α : Type} (entries : List (Scalar × α)) (key : String) : Option α :=
  (entries.find? fun e => e.1.same (.text key)).map (·.2)

/-! ## Plain values -/

mutual

def addPlain : InstanceInventory.Value → StateM Collections Part
  | .null => return .scalar .null
  | .bool b => return .scalar (.bool b)
  | .number n => return .scalar (.number n)
  | .text s => return .scalar (.text s)
  | .list items => do addCollection (.list (← addItems items))
  | .object fields => do addCollection (.mapping (← addFields fields))

def addItems : List InstanceInventory.Value → StateM Collections (List Part)
  | [] => return []
  | v :: vs => do
    let p ← addPlain v
    return p :: (← addItems vs)

def addFields : List (String × InstanceInventory.Value) → StateM Collections (List (Scalar × Part))
  | [] => return []
  | (k, v) :: fs => do
    let p ← addPlain v
    return (.text k, p) :: (← addFields fs)

def addCollection (c : Collection) : StateM Collections Part := do
  let store ← get
  set (store.push c)
  return .place store.size

end

/-- A plain value, each of whose collections gets a place of its own. -/
def ofPlain (v : InstanceInventory.Value) : Value :=
  let (part, store) := (addPlain v).run #[]
  ⟨part, store⟩

end Value
end InstanceInventory.Yaml
