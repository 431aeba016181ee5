import InstanceInventory.Record.Snapshot
import Mathlib.Data.List.Nodup

/-! # What the provider describes

* `Value.at?`, `Value.textAt`, `Value.itemsAt`: what an object says in a field.
* `tagsAt`: the tags of an instance or a volume.
* `IsInstance`, `IsVolume`: descriptions of the shape that the provider answers with.
* `tagTable_eq`: the tags of a description are kept in order, each under its own key.
-/

namespace InstanceInventory
set_option autoImplicit false

/-! ## Fields -/

namespace Value
variable {v : Value} {name : String}

/-- What an object says in a field, if it has the field. -/
def at? (v : Value) (name : String) : Option Value :=
  match v with
  | .object fields => Pairs.get? fields name
  | _ => none

/-- The text in a field; the empty one where there is none. -/
def textAt (v : Value) (name : String) : String :=
  match v.at? name with
  | some (.text s) => s
  | _ => ""

/-- The items of the list in a field; none where there is no list. -/
def itemsAt (v : Value) (name : String) : List Value :=
  match v.at? name with
  | some (.list vs) => vs
  | _ => []

/-- A value with fields. -/
def IsObject (v : Value) : Prop :=
  ∃ fields, v = .object fields

theorem IsObject.field? (h : v.IsObject) : v.field? name = .ok (v.at? name) := by
  obtain ⟨fields, rfl⟩ := h
  rfl

theorem IsObject.fieldOr (h : v.IsObject) (other : Value) :
    v.fieldOr name other = .ok ((v.at? name).getD other) := by
  rw [Value.fieldOr, h.field?]
  rfl

theorem IsObject.holds (h : v.IsObject) : v.holds name = .ok (v.at? name).isSome := by
  obtain ⟨fields, rfl⟩ := h
  rfl

theorem field_of_at? {w : Value} (h : v.at? name = some w) : v.field name = .ok w := by
  unfold at? at h
  split at h
  · rw [Value.field, h]
  · cases h

theorem IsObject.empty : emptyObject.IsObject :=
  ⟨[], rfl⟩

/-- A field that holds a list, or is not there. -/
def ListAt (v : Value) (name : String) (p : Value → Prop) : Prop :=
  v.at? name = none ∨ ∃ vs, v.at? name = some (.list vs) ∧ ∀ w ∈ vs, p w

theorem IsObject.fieldItems {p : Value → Prop} (h : v.IsObject) (hlist : v.ListAt name p) :
    v.fieldItems name = .ok (v.itemsAt name) := by
  rw [Value.fieldItems, h.fieldOr, itemsAt]
  rcases hlist with hnone | ⟨vs, hvs, -⟩
  · rw [hnone]
    rfl
  · rw [hvs]
    rfl

theorem ListAt.forall {p : Value → Prop} (h : v.ListAt name p) : ∀ w ∈ v.itemsAt name, p w := by
  rw [itemsAt]
  rcases h with hnone | ⟨vs, hvs, hp⟩
  · rw [hnone]
    exact nofun
  · rw [hvs]
    exact hp

/-- A field that is as a predicate says, or null, or not there. -/
def OptionalAt (v : Value) (name : String) (p : Value → Prop) : Prop :=
  ∀ w, v.at? name = some w → w = .null ∨ p w

theorem OptionalAt.absent {v : Value} {name : String} {p : Value → Prop} (h : v.at? name = none) :
    v.OptionalAt name p :=
  fun w hw => absurd (hw.symm.trans h) (Option.some_ne_none w)

end Value

namespace Record
open Value (Table)
variable {v : Value} {key : String} {pairs : List (String × String)}

/-! ## Tags -/

/-- A tag as the provider describes it: a key, and a value that may be left out. -/
structure IsTag (v : Value) : Prop where
  object : v.IsObject
  key : ∃ k, v.at? "Key" = some (.text k)
  value : v.at? "Value" = none ∨ ∃ s, v.at? "Value" = some (.text s)

/-- A tag as a key with its value. -/
def tagOf (v : Value) : String × String :=
  (v.textAt "Key", v.textAt "Value")

def tagsAt (v : Value) : List (String × String) :=
  (v.itemsAt "Tags").map tagOf

/-- A description whose tags, if it has any, have keys of their own. -/
structure HasTags (v : Value) : Prop where
  tags : v.at? "Tags" = some .null ∨ v.ListAt "Tags" IsTag
  keys : ((tagsAt v).map Prod.fst).Nodup

/-- Keys with values as a table. -/
def tableOf (pairs : List (String × String)) : Table :=
  pairs.map fun e => (.text e.1, .text e.2)

theorem same_text (a b : String) : (Value.text a).same (.text b) = (a == b) := by
  rw [Value.same]

theorem put_new (hnew : key ∉ pairs.map Prod.fst) (s : String) :
    Table.put (tableOf pairs) (.text key) (.text s) = tableOf (pairs ++ [(key, s)]) := by
  induction pairs with
  | nil => rfl
  | cons e pairs ih =>
    rw [List.map_cons, List.mem_cons, not_or] at hnew
    have hother : ¬ (Value.text e.1).same (.text key) = true := by
      rw [same_text]
      simpa using Ne.symm hnew.1
    have hcons : tableOf (e :: pairs) = (.text e.1, .text e.2) :: tableOf pairs := rfl
    rw [hcons, Table.put, if_neg hother, ih hnew.2]
    rfl

theorem addTags_eq {tags : List Value} (htags : ∀ t ∈ tags, IsTag t)
    (hkeys : ((pairs ++ tags.map tagOf).map Prod.fst).Nodup) :
    addTags (tableOf pairs) tags = .ok (tableOf (pairs ++ tags.map tagOf)) := by
  induction tags generalizing pairs with
  | nil => rw [addTags, List.map_nil, List.append_nil]
  | cons t tags ih =>
    have ht := htags t (List.mem_cons_self ..)
    obtain ⟨k, hk⟩ := ht.key
    have hkey : (tagOf t).1 = k := by
      simp only [tagOf, Value.textAt, hk]
    have hvalue : t.fieldOr "Value" (.text "") = .ok (.text (tagOf t).2) := by
      rw [ht.object.fieldOr]
      rcases ht.value with hnone | ⟨s, hs⟩
      · simp only [tagOf, Value.textAt, hnone]
        rfl
      · simp only [tagOf, Value.textAt, hs]
        rfl
    have hsplit : pairs ++ (t :: tags).map tagOf = (pairs ++ [tagOf t]) ++ tags.map tagOf := by simp
    rw [hsplit] at hkeys ⊢
    have hnew : k ∉ pairs.map Prod.fst := by
      have hnodup := (List.nodup_append.1 (List.map_append ▸ hkeys)).1
      rw [List.map_append, List.map_singleton, hkey] at hnodup
      exact fun hmem => (List.nodup_append.1 hnodup).2.2 k hmem k (List.mem_singleton_self k) rfl
    rw [addTags, Value.field_of_at? hk, hvalue]
    have hset : Table.set (tableOf pairs) (.text k) (.text (tagOf t).2) =
        .ok (tableOf (pairs ++ [tagOf t])) := by
      have hput := put_new hnew (tagOf t).2
      rw [show (k, (tagOf t).2) = tagOf t from Prod.ext hkey.symm rfl] at hput
      rw [← hput]
      rfl
    simp only [bind, Except.bind, hset]
    exact ih (fun t ht => htags t (List.mem_cons_of_mem _ ht)) hkeys

/-- The tags of a description are kept in order, each under its own key. -/
theorem tagTable_eq (h : HasTags v) :
    tagTable ((v.at? "Tags").getD .null) = .ok (tableOf (tagsAt v)) := by
  rcases h.tags with hnull | hnone | ⟨tags, hlist, htags⟩
  · rw [tagsAt, Value.itemsAt, hnull]
    rfl
  · rw [tagsAt, Value.itemsAt, hnone]
    rfl
  · have hkeys := h.keys
    rw [tagsAt, Value.itemsAt, hlist] at hkeys ⊢
    rw [Option.getD_some, tagTable]
    cases tags with
    | nil => rfl
    | cons t tags =>
      have hadd : addTags (tableOf ([] : List (String × String))) (t :: tags) = _ :=
        addTags_eq htags hkeys
      exact hadd

theorem textEntries_tableOf (pairs : List (String × String)) :
    Table.textEntries (tableOf pairs) = .ok (pairs.map fun e => (e.1, .text e.2)) := by
  induction pairs with
  | nil => rfl
  | cons e pairs ih =>
    have hcons : tableOf (e :: pairs) = (.text e.1, .text e.2) :: tableOf pairs := rfl
    rw [hcons, Table.textEntries, ih]
    rfl

theorem textEntry?_tableOf (pairs : List (String × String)) (key : String) :
    Table.textEntry? (tableOf pairs) key = (pairs.lookup key).map .text := by
  have hfind : ∀ e : String × String, Value.isText key (.text e.1) = (e.1 == key) :=
    fun e => same_text e.1 key
  rw [Table.textEntry?, tableOf, List.find?_map]
  induction pairs with
  | nil => rfl
  | cons e pairs ih =>
    rw [List.find?_cons, List.lookup_cons, Function.comp_apply, hfind]
    by_cases hkey : e.1 = key
    · rw [beq_iff_eq.2 hkey, beq_iff_eq.2 hkey.symm]
      rfl
    · rw [beq_eq_false_iff_ne.2 hkey, beq_eq_false_iff_ne.2 (Ne.symm hkey)]
      exact ih

/-- A tag of an instance, or what stands in its place where the tag is missing or empty. -/
def tagAtOr (v : Value) (key : String) (other : Value) : Value :=
  match (tagsAt v).lookup key with
  | none | some "" => other
  | some s => .text s

theorem tagOr_eq (v : Value) (key : String) (other : Value) :
    tagOr (tableOf (tagsAt v)) key other = tagAtOr v key other := by
  rw [tagOr, textEntry?_tableOf, tagAtOr]
  split
  · next hnone =>
    rw [hnone]
    rfl
  · next hempty =>
    rw [hempty]
    rfl
  · next s hempty hs =>
    have hpresent : (Value.text s).isTruthy = true := by
      simpa [Value.isTruthy] using hempty
    rw [hs]
    exact if_pos hpresent

/-- The tags that may be managed: all but those whose keys begin with `aws:`. -/
def ownTags (v : Value) : Fields :=
  ((tagsAt v).filter fun e => ¬ "aws:".toList <+: e.1.toList).map fun e => (e.1, .text e.2)

theorem importableTags_eq (v : Value) : importableTags (tableOf (tagsAt v)) = .ok (ownTags v) := by
  have himportable : ∀ key, isImportable key = decide (¬ "aws:".toList <+: key.toList) := by
    intro key
    rw [isImportable, Bool.eq_iff_iff]
    simp [← List.isPrefixOf_iff_prefix]
  rw [importableTags, textEntries_tableOf, ownTags]
  simp only [Except.map, List.filter_map, himportable]
  rfl

end Record
end InstanceInventory
