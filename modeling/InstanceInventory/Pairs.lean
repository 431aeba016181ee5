/-! # Ordered pairs

* `Pairs.set`: gives a key a value in a list of pairs; a key that is there keeps its place.
* `Pairs.ofList`: pairs in which each key stands once, at its first place and with its last value.
* `Pairs.get?`: the value of a key.
-/

namespace InstanceInventory.Pairs
set_option autoImplicit false

variable {α : Type}

def get? (es : List (String × α)) (key : String) : Option α :=
  (es.find? (·.1 == key)).map (·.2)

/-- Pairs in which a key has a given value; a key that is there keeps its place, a new key comes
last. -/
def set (es : List (String × α)) (key : String) (value : α) : List (String × α) :=
  match es with
  | [] => [(key, value)]
  | e :: es => if e.1 = key then (key, value) :: es else e :: set es key value

theorem keys_set (es : List (String × α)) (key : String) (value : α) :
    (set es key value).map Prod.fst =
      if key ∈ es.map Prod.fst then es.map Prod.fst else es.map Prod.fst ++ [key] := by
  induction es with
  | nil => rfl
  | cons e es ih => grind [set]

theorem nodup_keys_set {es : List (String × α)} (key : String) (value : α)
    (h : (es.map Prod.fst).Nodup) : ((set es key value).map Prod.fst).Nodup := by
  rw [keys_set]
  split
  · exact h
  · next hk =>
    refine List.nodup_append.2 ⟨h, by simp, ?_⟩
    intro a ha b hb
    rw [List.mem_singleton.1 hb]
    rintro rfl
    exact hk ha

/-- The pairs of one list after those of another. -/
def setAll (es fs : List (String × α)) : List (String × α) :=
  fs.foldl (fun es f => set es f.1 f.2) es

def ofList (es : List (String × α)) : List (String × α) :=
  setAll [] es

end InstanceInventory.Pairs
