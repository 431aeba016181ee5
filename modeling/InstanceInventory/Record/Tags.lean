import InstanceInventory.Pairs

/-! # Tags

* `Tags`: keys with values, in the order in which the keys were first given, each key once.
* `Tags.set`: gives a key a value; a key that is there keeps its place.
-/

namespace InstanceInventory
set_option autoImplicit false

/-- Keys with values, in order, each key once. -/
structure Tags where
  entries : List (String × String)
  nodup_keys : (entries.map Prod.fst).Nodup
  deriving DecidableEq

namespace Tags

def empty : Tags := ⟨[], List.nodup_nil⟩

instance : Inhabited Tags := ⟨empty⟩

def keys (t : Tags) : List String :=
  t.entries.map Prod.fst

def get? (t : Tags) (key : String) : Option String :=
  Pairs.get? t.entries key

def set (t : Tags) (key value : String) : Tags :=
  ⟨Pairs.set t.entries key value, Pairs.nodup_keys_set key value t.nodup_keys⟩

/-- The tags of pairs in order; of two pairs with one key the first gives the place and the last
the value. -/
def ofPairs (pairs : List (String × String)) : Tags :=
  pairs.foldl (fun t e => t.set e.1 e.2) empty

/-- The tags whose keys satisfy a predicate. -/
def filterKeys (t : Tags) (p : String → Bool) : Tags where
  entries := t.entries.filter fun e => p e.1
  nodup_keys := t.nodup_keys.sublist ((List.filter_sublist).map Prod.fst)

/-- Adds the pairs of other tags whose keys are not there yet. -/
def addMissing (t : Tags) (others : List (String × String)) : Tags :=
  others.foldl (fun t e => if t.keys.contains e.1 then t else t.set e.1 e.2) t

end Tags
end InstanceInventory
