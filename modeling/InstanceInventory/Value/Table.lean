import InstanceInventory.Value.Basic

/-! # Tables

* `Value.Table`: values under keys, in the order in which the keys were first given.
* `Value.asKey`: a value that can be a key.
* `Table.get?`, `Table.set`: what is kept under a key.
-/

namespace InstanceInventory.Value
set_option autoImplicit false

/-- Values under keys, no two of which are equal. -/
abbrev Table := List (Value × Value)

/-- A value that can be a key; lists and objects cannot. -/
def asKey (v : Value) : Except ShapeFault Value :=
  if v.isCollection then .error .unexpectedKind else .ok v

namespace Table

def textEntry? (t : Table) (key : String) : Option Value :=
  (t.find? fun e => e.1.isText key).map Prod.snd

def get? (t : Table) (key : Value) : Except ShapeFault (Option Value) := do
  let k ← key.asKey
  return (t.find? fun e => e.1.same k).map Prod.snd

/-- The table in which a value is kept under a key; a key that is there keeps its place. -/
def put (t : Table) (key value : Value) : Table :=
  match t with
  | [] => [(key, value)]
  | e :: es => if e.1.same key then (e.1, value) :: es else e :: put es key value

def set (t : Table) (key value : Value) : Except ShapeFault Table := do
  return t.put (← key.asKey) value

/-- The entries of a table, whose keys must all be texts. -/
def textEntries : Table → Except ShapeFault Fields
  | [] => .ok []
  | (.text key, v) :: es => do
    let entries ← textEntries es
    return (key, v) :: entries
  | _ => .error .unsupported

end Table
end InstanceInventory.Value
