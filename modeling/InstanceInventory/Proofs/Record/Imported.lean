import InstanceInventory.Proofs.Record.Described
import Mathlib.Data.List.Forall2
import Mathlib.Data.List.InsertIdx

/-! # Drafts of described instances

* `attached`, `rootPlace?`, `furtherMappings`: the mappings with volumes behind them, the one that
  the instance starts from, and the others.
* `IsInstance`: an instance as the provider describes it.
* `Imports`: a draft has the volumes and tags of a described instance, and no others.
* `imports_of_described`: every described instance has such a draft.
-/

namespace InstanceInventory.Record
set_option autoImplicit false
open Value (Table)
variable {m info described : Value} {volumes : List (String × Value)}

/-! ## Mappings -/

/-- A device mapping as the provider describes it. Where a volume is behind it, it names its device. -/
structure IsMapping (m : Value) : Prop where
  object : m.IsObject
  ebs : ∀ ebs, m.at? "Ebs" = some ebs → ebs.IsObject ∧
    (ebs.at? "VolumeId" = none ∨ ∃ id, ebs.at? "VolumeId" = some (.text id))
  device : (m.at? "Ebs").isSome = true → ∃ s, m.at? "DeviceName" = some (.text s)

/-- The mappings of an instance with volumes behind them. -/
def attached (described : Value) : List Value :=
  (described.itemsAt "BlockDeviceMappings").filter fun m => (m.at? "Ebs").isSome

def deviceOf (m : Value) : String :=
  m.textAt "DeviceName"

/-- The device that an instance says to start from. -/
def rootDevice? (described : Value) : Option String :=
  match described.at? "RootDeviceName" with
  | some (.text s) => some s
  | _ => none

/-- The place among the attached mappings of the one that the instance starts from: the first of the
device that it names, else the first of a usual device. -/
def rootPlace? (described : Value) : Option Nat :=
  ((attached described).findIdx? fun m => rootDevice? described = some (deviceOf m)).or
    ((attached described).findIdx? fun m => deviceOf m = "/dev/xvda" ∨ deviceOf m = "/dev/sda1")

/-- The mapping that the instance starts from. -/
def rootOf? (described : Value) : Option Value :=
  (rootPlace? described).bind fun i => (attached described)[i]?

/-- The attached mappings other than the one that the instance starts from. -/
def furtherMappings (described : Value) : List Value :=
  match rootPlace? described with
  | some i => (attached described).eraseIdx i
  | none => attached described

/-! ## Volumes -/

/-- A volume as the provider describes it. -/
structure IsVolume (info : Value) : Prop where
  object : info.IsObject
  tags : HasTags info

/-- Described volumes, by their ids, as a table. -/
def volumeTable (volumes : List (String × Value)) : Table :=
  volumes.map fun e => (.text e.1, e.2)

/-- The volume behind a mapping, where it is known. -/
def volumeOf (volumes : List (String × Value)) (m : Value) : Option Value :=
  (m.at? "Ebs").bind fun ebs => volumes.lookup (ebs.textAt "VolumeId")

/-- What a volume, if it is known, says in a field; `other` where it says nothing. -/
def said (info : Option Value) (name : String) (other : Value) : Value :=
  (info.bind fun v => v.at? name).getD other

/-- A further volume of a draft is the one behind a mapping. -/
structure ComesFrom (volumes : List (String × Value)) (m : Value) (x : DraftVolume) : Prop where
  device : m.at? "DeviceName" = some x.devicePath
  size : x.sizeGib = said (volumeOf volumes m) "Size" (.ofInt 100)
  type : x.volumeType = said (volumeOf volumes m) "VolumeType" (.text "gp3")
  encrypted : x.encrypted = .bool (said (volumeOf volumes m) "Encrypted" (.bool false)).isTruthy
  deletion : x.deleteOnTermination =
    .bool (said (m.at? "Ebs") "DeleteOnTermination" (.bool false)).isTruthy

theorem lookup_volumeTable (volumes : List (String × Value)) (id : String) :
    Table.get? (volumeTable volumes) (.text id) = .ok (volumes.lookup id) := by
  show Except.ok _ = _
  rw [volumeTable, List.find?_map]
  congr 1
  induction volumes with
  | nil => rfl
  | cons e volumes ih =>
    rw [List.find?_cons, List.lookup_cons, Function.comp_apply, same_text]
    by_cases hid : e.1 = id
    · rw [beq_iff_eq.2 hid, beq_iff_eq.2 hid.symm]
      rfl
    · rw [beq_eq_false_iff_ne.2 hid, beq_eq_false_iff_ne.2 (Ne.symm hid)]
      exact ih

theorem volumeBehind_eq (h : IsMapping m) (hebs : (m.at? "Ebs").isSome = true) :
    volumeBehind (volumeTable volumes) m = .ok ((volumeOf volumes m).getD .null) := by
  obtain ⟨ebs, hfound⟩ := Option.isSome_iff_exists.1 hebs
  obtain ⟨hobject, hid⟩ := h.ebs ebs hfound
  have htext : ebs.fieldOr "VolumeId" (.text "") = .ok (.text (ebs.textAt "VolumeId")) := by
    rw [hobject.fieldOr, Value.textAt]
    rcases hid with hnone | ⟨id, hid⟩
    · rw [hnone]
      rfl
    · rw [hid]
      rfl
  rw [volumeBehind, Value.field_of_at? hfound]
  simp only [bind, Except.bind, htext, lookup_volumeTable, volumeOf, hfound, Option.bind_some]
  rfl

theorem mem_of_lookup {id : String} (h : volumes.lookup id = some info) :
    ∃ e ∈ volumes, e.2 = info := by
  rw [List.lookup_eq_findSome?] at h
  obtain ⟨e, he, hfound⟩ := List.exists_of_findSome?_eq_some h
  split_ifs at hfound
  exact ⟨e, he, Option.some.inj hfound⟩

theorem isVolume_of_volumeOf (hvolumes : ∀ e ∈ volumes, IsVolume e.2)
    (h : volumeOf volumes m = some info) : IsVolume info := by
  obtain ⟨ebs, -, hlookup⟩ := Option.bind_eq_some_iff.1 h
  obtain ⟨e, he, rfl⟩ := mem_of_lookup hlookup
  exact hvolumes e he

/-! ## The root volume -/

/-- A draft with the root volume of a description, if there is one. -/
def rooted (info : Option Value) (d : Draft) : Draft :=
  { d with
    rootSizeGib := said info "Size" (.ofInt 20)
    rootVolumeType := said info "VolumeType" (.text "gp3")
    rootEncrypted := .bool (said info "Encrypted" (.bool false)).isTruthy
    rootTags := (info.map ownTags).getD [] }

theorem describeRoot_eq (h : IsVolume info) (d : Draft) :
    describeRoot info d = .ok (rooted (some info) d) := by
  rw [describeRoot]
  simp only [h.object.fieldOr, bind, Except.bind, tagTable_eq h.tags, importableTags_eq]
  rfl

theorem withRoot_eq (hvolumes : ∀ e ∈ volumes, IsVolume e.2) {root : Option Mapping}
    (hroot : ∀ r ∈ root, IsMapping r.1 ∧ (r.1.at? "Ebs").isSome = true) {d : Draft}
    (hplain : rooted none d = { d with rootEncrypted := .bool false }) :
    withRoot (volumeTable volumes) root d =
      .ok (rooted ((root.map Prod.fst).bind (volumeOf volumes)) d) := by
  unfold withRoot
  cases root with
  | none => exact congrArg Except.ok hplain.symm
  | some r =>
    obtain ⟨hmapping, hebs⟩ := hroot r rfl
    simp only [bind, Except.bind, volumeBehind_eq hmapping hebs, Option.map_some, Option.bind_some]
    cases hinfo : volumeOf volumes r.1 with
    | none => exact congrArg Except.ok hplain.symm
    | some info =>
      have hvolume := isVolume_of_volumeOf hvolumes hinfo
      obtain ⟨fields, rfl⟩ := hvolume.object
      exact describeRoot_eq hvolume d

/-! ## Further volumes -/

theorem exists_volumeLabel (name s : String) (number : Nat) :
    ∃ label, volumeLabel (.text name) (.text s) number = .ok label := by
  unfold volumeLabel
  simp only [Value.asText, Value.length, bind, Except.bind, pure, Except.pure]
  split_ifs
  · exact ⟨_, rfl⟩
  · exact ⟨_, rfl⟩
  · exact ⟨_, rfl⟩

theorem hasTags_emptyObject : HasTags .emptyObject where
  tags := .inr (.inl rfl)
  keys := List.nodup_nil

/-- An unknown volume says nothing, like an object without fields. -/
theorem exists_known (hvolumes : ∀ e ∈ volumes, IsVolume e.2) (m : Value) :
    ∃ info, ((volumeOf volumes m).getD .null).orElse .emptyObject = info ∧ IsVolume info ∧
      ∀ name other, (info.at? name).getD other = said (volumeOf volumes m) name other := by
  cases hinfo : volumeOf volumes m with
  | none => exact ⟨.emptyObject, rfl, ⟨.empty, hasTags_emptyObject⟩, fun _ _ => rfl⟩
  | some info =>
    have hvolume := isVolume_of_volumeOf hvolumes hinfo
    refine ⟨info, ?_, hvolume, fun _ _ => rfl⟩
    obtain ⟨fields, rfl⟩ := hvolume.object
    cases fields with
    | nil => rfl
    | cons f fields => rfl

theorem exists_describeExtra (hvolumes : ∀ e ∈ volumes, IsVolume e.2) (h : IsMapping m)
    (hebs : (m.at? "Ebs").isSome = true) (name : String) (number : Nat) :
    ∃ x, describeExtra (.text name) (volumeTable volumes) number m = .ok x ∧
      ComesFrom volumes m x := by
  obtain ⟨info, hknown, hvolume, hsaid⟩ := exists_known hvolumes m
  obtain ⟨ebs, hfound⟩ := Option.isSome_iff_exists.1 hebs
  obtain ⟨device, hdevice⟩ := h.device hebs
  obtain ⟨label, hlabel⟩ : ∃ label, volumeLabel (.text name)
      ((Table.textEntry? (tableOf (tagsAt info)) "Name").getD (.text "")) number = .ok label := by
    rw [textEntry?_tableOf]
    cases (tagsAt info).lookup "Name" with
    | none => exact exists_volumeLabel name "" number
    | some s => exact exists_volumeLabel name s number
  unfold describeExtra
  simp only [bind, Except.bind, volumeBehind_eq h hebs, hknown, hvolume.object.fieldOr,
    tagTable_eq hvolume.tags, hlabel, Value.field_of_at? hdevice, Value.field_of_at? hfound,
    (h.ebs ebs hfound).1.fieldOr]
  refine ⟨_, rfl, hdevice, hsaid _ _, hsaid _ _, ?_, ?_⟩
  · rw [← hsaid]
  · rw [hfound]
    rfl

/-- The further volumes come one by one from the mappings with volumes behind them, the one at the
place of the root left out. -/
theorem exists_describeExtras (hvolumes : ∀ e ∈ volumes, IsVolume e.2) (name : String)
    (root : Option Nat) {ms : List Mapping} (hms : ∀ m ∈ ms, IsMapping m.1) (number : Nat) :
    ∃ xs, describeExtras (.text name) (volumeTable volumes) root number ms = .ok xs ∧
      List.Forall₂ (ComesFrom volumes)
        ((ms.filter fun m => (m.1.at? "Ebs").isSome ∧ root ≠ some m.2).map Prod.fst) xs := by
  -- The number goes on only where a volume is taken, so it is left open.
  induction ms generalizing number with
  | nil => exact ⟨[], rfl, .nil⟩
  | cons m ms ih =>
    have hm := hms m (List.mem_cons_self ..)
    have hrest := ih fun m hm => hms m (List.mem_cons_of_mem _ hm)
    rw [describeExtras]
    by_cases hroot : root = some m.2
    · obtain ⟨xs, hxs, hfrom⟩ := hrest number
      refine ⟨xs, ?_, ?_⟩
      · rw [if_pos hroot]
        exact hxs
      · rw [List.filter_cons_of_neg (by simp [hroot])]
        exact hfrom
    · rw [if_neg hroot, hm.object.holds]
      by_cases hebs : (m.1.at? "Ebs").isSome = true
      · obtain ⟨x, hx, hcomes⟩ := exists_describeExtra hvolumes hm hebs name number
        obtain ⟨xs, hxs, hfrom⟩ := hrest (number + 1)
        refine ⟨x :: xs, ?_, ?_⟩
        · simp only [bind, Except.bind, hebs, if_true, hx, hxs]
          rfl
        · rw [List.filter_cons_of_pos (by simp [hroot, hebs])]
          exact .cons hcomes hfrom
      · obtain ⟨xs, hxs, hfrom⟩ := hrest number
        refine ⟨xs, ?_, ?_⟩
        · simp only [bind, Except.bind, if_neg hebs]
          exact hxs
        · rw [List.filter_cons_of_neg (by simp [hebs])]
          exact hfrom

/-! ## The mapping that an instance starts from -/

theorem volumeMappings_eq {ms : List Mapping} (hms : ∀ m ∈ ms, IsMapping m.1) :
    volumeMappings ms = .ok (ms.filter fun m => (m.1.at? "Ebs").isSome) := by
  induction ms with
  | nil => rfl
  | cons m ms ih =>
    rw [volumeMappings, (hms m (List.mem_cons_self ..)).object.holds,
      ih fun m hm => hms m (List.mem_cons_of_mem _ hm), List.filter_cons]
    simp only [bind, Except.bind]
    split_ifs
    · rfl
    · rfl

theorem findDevice_eq {p : Value → Bool} {q : Value → Bool} {ms : List Mapping}
    (hms : ∀ m ∈ ms, IsMapping m.1)
    (hp : ∀ m ∈ ms, p ((m.1.at? "DeviceName").getD .null) = q m.1) :
    findDevice p ms = .ok (ms.find? fun m => q m.1) := by
  induction ms with
  | nil => rfl
  | cons m ms ih =>
    rw [findDevice, (hms m (List.mem_cons_self ..)).object.fieldOr, List.find?_cons]
    simp only [bind, Except.bind, hp m (List.mem_cons_self ..)]
    cases hq : q m.1 with
    | true => rfl
    | false =>
      exact ih (fun m hm => hms m (List.mem_cons_of_mem _ hm))
        fun m hm => hp m (List.mem_cons_of_mem _ hm)

/-- Of pairs with second parts of their own, one is passed over by its second part or by its place. -/
theorem filter_ne_eq_eraseIdx {α β : Type} [DecidableEq β] {ms : List (α × β)}
    (hms : (ms.map Prod.snd).Nodup) {i : Nat} {r : α × β} (hr : ms[i]? = some r) :
    (ms.filter fun m => r.2 ≠ m.2) = ms.eraseIdx i := by
  -- Equal first parts are no reason to pass over a pair: only second parts are compared.
  induction ms generalizing i with
  | nil => rfl
  | cons m ms ih =>
    rw [List.map_cons, List.nodup_cons] at hms
    cases i with
    | zero =>
      obtain rfl := Option.some.inj hr
      rw [List.filter_cons_of_neg (by simp), List.eraseIdx_cons_zero, List.filter_eq_self]
      intro n hn
      have hother : m.2 ≠ n.2 := fun h => hms.1 (h ▸ List.mem_map_of_mem hn)
      simpa using hother
    | succ i =>
      rw [List.getElem?_cons_succ] at hr
      have hother : r.2 ≠ m.2 := fun h => hms.1 (h ▸ List.mem_map_of_mem (List.mem_of_getElem? hr))
      rw [List.filter_cons_of_pos (by simpa using hother), List.eraseIdx_cons_succ, ih hms.2 hr]

/-! ## Instances -/

/-- An instance as the provider describes it. -/
structure IsInstance (described : Value) : Prop where
  object : described.IsObject
  tags : HasTags described
  mappings : described.ListAt "BlockDeviceMappings" IsMapping
  rootDevice : described.OptionalAt "RootDeviceName" fun w => ∃ s, w = .text s
  groups : described.ListAt "SecurityGroups" fun w => ∃ id, w.at? "GroupId" = some id
  profile : described.OptionalAt "IamInstanceProfile" fun w =>
    w.IsObject ∧ w.OptionalAt "Arn" fun arn => ∃ s, arn = .text s
  options : described.OptionalAt "MetadataOptions" Value.IsObject
  monitoring : described.OptionalAt "Monitoring" Value.IsObject

/-- The attached mappings with their places among all mappings. -/
def placed (described : Value) : List Mapping :=
  (described.itemsAt "BlockDeviceMappings").zipIdx.filter fun m => (m.1.at? "Ebs").isSome

theorem map_fst_placed (described : Value) : (placed described).map Prod.fst = attached described := by
  have hmap : ((described.itemsAt "BlockDeviceMappings").zipIdx.map Prod.fst) =
      described.itemsAt "BlockDeviceMappings" := List.zipIdx_map_fst 0 _
  rw [placed, attached]
  conv => rhs; rw [← hmap, List.filter_map]
  rfl

theorem nodup_placed (described : Value) : ((placed described).map Prod.snd).Nodup := by
  have hplaces := List.zipIdx_map_snd 0 (described.itemsAt "BlockDeviceMappings")
  refine List.Nodup.sublist (List.filter_sublist.map Prod.snd) ?_
  rw [hplaces]
  exact List.nodup_range'

theorem find?_placed (described : Value) (p : Value → Bool) :
    (placed described).find? (fun m => p m.1) =
      ((attached described).findIdx? p).bind fun i => (placed described)[i]? := by
  rw [List.find?_eq_bind_findIdx?_getElem?, ← map_fst_placed, List.findIdx?_map]
  rfl

theorem mem_placed (h : IsInstance described) {m : Mapping} (hm : m ∈ placed described) :
    IsMapping m.1 ∧ (m.1.at? "Ebs").isSome = true := by
  rw [placed, List.mem_filter] at hm
  exact ⟨h.mappings.forall m.1 (List.fst_mem_of_mem_zipIdx hm.1), hm.2⟩

theorem same_rootDevice (h : IsInstance described) (s : String) :
    (Value.text s).same ((described.at? "RootDeviceName").getD .null) =
      decide (rootDevice? described = some s) := by
  rw [rootDevice?]
  cases hroot : described.at? "RootDeviceName" with
  | none => rfl
  | some w =>
    rcases h.rootDevice w hroot with rfl | ⟨t, rfl⟩
    · rfl
    · rw [Option.getD_some, same_text, Bool.eq_iff_iff, beq_iff_eq, decide_eq_true_iff]
      exact ⟨fun hs => congrArg some hs.symm, fun hs => (Option.some.inj hs).symm⟩

theorem any_fallbacks (s : String) :
    rootDeviceFallbacks.any (fun device => (Value.text s).isText device) =
      decide (s = "/dev/xvda" ∨ s = "/dev/sda1") := by
  rw [Bool.eq_iff_iff]
  simp [rootDeviceFallbacks, Value.isText, same_text]

theorem rootMapping?_eq (h : IsInstance described) :
    rootMapping? ((described.at? "RootDeviceName").getD .null) (placed described) =
      .ok ((rootPlace? described).bind fun i => (placed described)[i]?) := by
  have hdevice : ∀ m ∈ placed described, (m.1.at? "DeviceName").getD .null = .text (deviceOf m.1) := by
    intro m hm
    obtain ⟨hmapping, hebs⟩ := mem_placed h hm
    obtain ⟨s, hs⟩ := hmapping.device hebs
    rw [deviceOf, Value.textAt, hs]
    rfl
  have hmappings : ∀ m ∈ placed described, IsMapping m.1 := fun m hm => (mem_placed h hm).1
  have hnamed : findDevice (·.same ((described.at? "RootDeviceName").getD .null)) (placed described) =
      .ok ((placed described).find? fun m => rootDevice? described = some (deviceOf m.1)) :=
    findDevice_eq (q := fun m => rootDevice? described = some (deviceOf m)) hmappings fun m hm => by
      rw [hdevice m hm, same_rootDevice h]
  have husual : findDevice (fun d => rootDeviceFallbacks.any d.isText) (placed described) =
      .ok ((placed described).find? fun m =>
        deviceOf m.1 = "/dev/xvda" ∨ deviceOf m.1 = "/dev/sda1") :=
    findDevice_eq (q := fun m => deviceOf m = "/dev/xvda" ∨ deviceOf m = "/dev/sda1") hmappings
      fun m hm => by
        rw [hdevice m hm]
        exact any_fallbacks _
  rw [find?_placed described fun m => rootDevice? described = some (deviceOf m)] at hnamed
  rw [find?_placed described fun m => deviceOf m = "/dev/xvda" ∨ deviceOf m = "/dev/sda1"] at husual
  rw [rootMapping?, rootPlace?]
  simp only [bind, Except.bind, hnamed]
  cases hplace : (attached described).findIdx? fun m => rootDevice? described = some (deviceOf m) with
  | none => exact husual
  | some i =>
    obtain ⟨r, hr⟩ : ∃ r, (placed described)[i]? = some r := by
      have hlength := congrArg List.length (map_fst_placed described)
      rw [List.length_map] at hlength
      obtain ⟨hi, -⟩ := List.findIdx?_eq_some_iff_getElem.1 hplace
      exact ⟨_, List.getElem?_eq_getElem (hlength ▸ hi)⟩
    rw [Option.bind_some, Option.some_or, Option.bind_some, hr]
    rfl

theorem rootOf?_eq (described : Value) :
    ((rootPlace? described).bind fun i => (placed described)[i]?).map Prod.fst = rootOf? described := by
  rw [rootOf?, ← map_fst_placed]
  cases rootPlace? described with
  | none => rfl
  | some i => rw [Option.bind_some, Option.bind_some, List.getElem?_map]

/-- The mappings that are not passed over are those other than the root's. -/
theorem furtherMappings_eq (described : Value) :
    (((described.itemsAt "BlockDeviceMappings").zipIdx.filter fun m => (m.1.at? "Ebs").isSome ∧
      ((rootPlace? described).bind fun i => (placed described)[i]?).map Prod.snd ≠ some m.2).map
        Prod.fst) = furtherMappings described := by
  have hfilter : ∀ p : Mapping → Prop, [DecidablePred p] →
      ((described.itemsAt "BlockDeviceMappings").zipIdx.filter fun m => (m.1.at? "Ebs").isSome ∧ p m) =
        (placed described).filter fun m => p m := by
    intro p _
    rw [placed, List.filter_filter]
    refine List.filter_congr fun m _ => ?_
    rw [Bool.decide_and, Bool.and_comm]
    simp
  rw [hfilter, furtherMappings, ← map_fst_placed]
  cases rootPlace? described with
  | none => simp
  | some i =>
    rw [Option.bind_some]
    cases hr : (placed described)[i]? with
    | none =>
      have hlength := List.getElem?_eq_none_iff.1 hr
      dsimp only
      rw [List.eraseIdx_of_length_le (by rw [List.length_map]; exact hlength)]
      simp
    | some r =>
      dsimp only
      rw [List.eraseIdx_map, ← filter_ne_eq_eraseIdx (nodup_placed described) hr]
      simp

/-! ## Drafts -/

/-- A draft has the volumes and tags of a described instance, and no others. -/
structure Imports (volumes : List (String × Value)) (environment described : Value) (d : Draft) :
    Prop where
  further : List.Forall₂ (ComesFrom volumes) (furtherMappings described) d.extraVolumes
  rootSize : d.rootSizeGib =
    said ((rootOf? described).bind (volumeOf volumes)) "Size" (.ofInt 20)
  rootType : d.rootVolumeType =
    said ((rootOf? described).bind (volumeOf volumes)) "VolumeType" (.text "gp3")
  rootEncrypted : d.rootEncrypted =
    .bool (said ((rootOf? described).bind (volumeOf volumes)) "Encrypted" (.bool false)).isTruthy
  rootTags : d.rootTags = (((rootOf? described).bind (volumeOf volumes)).map ownTags).getD []
  tags : d.allTags =
    [("Name", tagAtOr described "Name" (.text "unnamed")), ("Terraform", .text "true"),
      ("Environment", tagAtOr described "Environment" environment)] ++
    (ownTags described).filter fun e => e.1 ∉ ["Name", "Terraform", "Environment"]

theorem exists_tagAtOr (v : Value) (key other : String) :
    ∃ s, tagAtOr v key (.text other) = .text s := by
  rw [tagAtOr]
  split
  · exact ⟨_, rfl⟩
  · exact ⟨_, rfl⟩
  · exact ⟨_, rfl⟩

theorem exists_partOf {v : Value} {name : String} {p : Value → Prop} (hv : v.IsObject)
    (hpart : v.OptionalAt name p) : ∃ w, partOf v name = .ok w ∧ (w = .emptyObject ∨ p w) := by
  rw [partOf, hv.fieldOr]
  cases hw : v.at? name with
  | none => exact ⟨_, rfl, .inl rfl⟩
  | some w =>
    rcases hpart w hw with rfl | hp
    · exact ⟨_, rfl, .inl rfl⟩
    · refine ⟨_, rfl, ?_⟩
      rw [Option.getD_some, Value.orElse]
      split_ifs
      · exact .inr hp
      · exact .inl rfl

theorem fieldIs_eq {v : Value} (hv : v.IsObject) (name word other : String) :
    fieldIs v name word other = .ok (.bool (((v.at? name).getD (.text other)).isText word)) := by
  rw [fieldIs, hv.fieldOr]
  rfl

theorem exists_groups {gs : List Value} (hgs : ∀ g ∈ gs, ∃ id, g.at? "GroupId" = some id) :
    ∃ ids, gs.mapM (fun g => g.field "GroupId") = .ok ids := by
  induction gs with
  | nil => exact ⟨[], rfl⟩
  | cons g gs ih =>
    obtain ⟨id, hid⟩ := hgs g (List.mem_cons_self ..)
    obtain ⟨ids, hids⟩ := ih fun g hg => hgs g (List.mem_cons_of_mem _ hg)
    refine ⟨id :: ids, ?_⟩
    rw [List.mapM_cons, Value.field_of_at? hid, hids]
    rfl

theorem exists_profile (h : IsInstance described) : ∃ part arn profile,
    partOf described "IamInstanceProfile" = .ok part ∧ part.fieldOr "Arn" .null = .ok arn ∧
      profileName arn = .ok profile := by
  obtain ⟨part, hpart, hshape⟩ := exists_partOf h.object h.profile
  rcases hshape with rfl | ⟨hobject, harn⟩
  · exact ⟨_, _, _, hpart, rfl, rfl⟩
  · refine ⟨part, (part.at? "Arn").getD .null, ?_⟩
    obtain ⟨profile, hprofile⟩ : ∃ profile, profileName ((part.at? "Arn").getD .null) = .ok profile := by
      cases hw : part.at? "Arn" with
      | none => exact ⟨_, rfl⟩
      | some w =>
        rcases harn w hw with rfl | ⟨s, rfl⟩
        · exact ⟨_, rfl⟩
        · rw [Option.getD_some, profileName]
          split_ifs
          · exact ⟨_, rfl⟩
          · exact ⟨_, rfl⟩
    exact ⟨profile, hpart, hobject.fieldOr _, hprofile⟩

/-- The custom tags of a draft follow the standard ones, without those that have their keys. -/
theorem allTags_eq {d : Draft} {v : Value}
    (htags : d.tags = (ownTags v).filter fun e => !standardTagKeys.contains e.1) :
    d.allTags = [("Name", d.name), ("Terraform", .text "true"), ("Environment", d.environment)] ++
      (ownTags v).filter fun e => e.1 ∉ ["Name", "Terraform", "Environment"] := by
  have hcustom : ∀ e : String × Value, (!standardTagKeys.contains e.1) =
      decide (e.1 ∉ ["Name", "Terraform", "Environment"]) := by
    intro e
    rw [decide_not, ← standardTagKeys, List.contains_eq_mem]
  rw [Draft.allTags, htags, List.filter_filter, Draft.standardTags]
  simp only [hcustom, Bool.and_self]

/-- Every described instance has a draft with its volumes and tags, and no others. -/
theorem imports_of_described (h : IsInstance described) (hvolumes : ∀ e ∈ volumes, IsVolume e.2)
    (protection : Protection) (environment : Value) :
    ∃ d, ofSnapshot described (volumeTable volumes) protection environment = .ok d ∧
      Imports volumes environment described d := by
  obtain ⟨name, hname⟩ := exists_tagAtOr described "Name" unnamed
  obtain ⟨part, arn, profile, hpart, harn, hprofile⟩ := exists_profile h
  obtain ⟨options, hoptions, hoptionsShape⟩ := exists_partOf h.object h.options
  have hoptionsObject : options.IsObject := hoptionsShape.elim (· ▸ .empty) id
  obtain ⟨monitoring, hmonitoring, hmonitoringShape⟩ := exists_partOf h.object h.monitoring
  have hmonitoringObject : monitoring.IsObject := hmonitoringShape.elim (· ▸ .empty) id
  obtain ⟨groups, hgroups⟩ := exists_groups h.groups.forall
  have hmappings : ∀ m ∈ (described.itemsAt "BlockDeviceMappings").zipIdx, IsMapping m.1 :=
    fun m hm => h.mappings.forall m.1 (List.fst_mem_of_mem_zipIdx hm)
  have hroot : ∀ r ∈ (rootPlace? described).bind fun i => (placed described)[i]?,
      IsMapping r.1 ∧ (r.1.at? "Ebs").isSome = true := by
    intro r hr
    obtain ⟨i, -, hi⟩ := Option.bind_eq_some_iff.1 hr
    exact mem_placed h (List.mem_of_getElem? hi)
  obtain ⟨xs, hxs, hfrom⟩ := exists_describeExtras hvolumes name
    (((rootPlace? described).bind fun i => (placed described)[i]?).map Prod.snd) hmappings 1
  unfold ofSnapshot
  simp only [bind, Except.bind, h.object.fieldOr, tagTable_eq h.tags, tagOr_eq, hname,
    h.object.fieldItems h.mappings, volumeMappings_eq hmappings]
  rw [← placed, rootMapping?_eq h]
  simp only
  rw [withRoot_eq hvolumes hroot rfl]
  simp only [hxs, hpart, harn, hprofile, hoptions, hmonitoring, h.object.fieldItems h.groups, hgroups,
    importableTags_eq, hoptionsObject.fieldOr]
  simp only [fieldIs_eq hmonitoringObject, fieldIs_eq hoptionsObject]
  rw [furtherMappings_eq] at hfrom
  refine ⟨_, rfl, hfrom, ?_, ?_, ?_, ?_, ?_⟩
  · rw [← rootOf?_eq]
    rfl
  · rw [← rootOf?_eq]
    rfl
  · rw [← rootOf?_eq]
    rfl
  · rw [← rootOf?_eq]
    rfl
  · rw [allTags_eq (v := described) (by rfl), show "unnamed" = unnamed from rfl, hname]
    rfl

def exampleTag (key value : String) : Value :=
  .object [("Key", .text key), ("Value", .text value)]

/-- A mapping of an example, with a volume behind it. -/
def exampleMapping (device id : String) : Value :=
  .object [("DeviceName", .text device), ("Ebs", .object [("VolumeId", .text id)])]

/-- An instance that names its root device after two other mappings, and maps it twice. -/
def exampleInstance : Value :=
  .object [
    ("Tags", .list [exampleTag "Team" "ops", exampleTag "aws:owner" "x", exampleTag "Name" "web"]),
    ("RootDeviceName", .text "/dev/sdh"),
    ("BlockDeviceMappings", .list [exampleMapping "/dev/xvda" "vol-1",
      .object [("DeviceName", .text "/dev/sdb")], exampleMapping "/dev/sdh" "vol-2",
      exampleMapping "/dev/sdh" "vol-3"])]

def exampleVolumes : List (String × Value) :=
  [("vol-2", .object [("Size", .ofInt 50)])]

theorem isTag_example (key value : String) : IsTag (exampleTag key value) where
  object := ⟨_, rfl⟩
  key := ⟨key, rfl⟩
  value := .inr ⟨value, rfl⟩

theorem isMapping_example (device id : String) : IsMapping (exampleMapping device id) where
  object := ⟨_, rfl⟩
  ebs := by
    intro ebs hebs
    have hfound : (exampleMapping device id).at? "Ebs" = some (.object [("VolumeId", .text id)]) :=
      rfl
    obtain rfl := Option.some.inj (hfound.symm.trans hebs)
    exact ⟨⟨_, rfl⟩, .inr ⟨id, rfl⟩⟩
  device := fun _ => ⟨device, rfl⟩

theorem isInstance_example : IsInstance exampleInstance where
  object := ⟨_, rfl⟩
  tags := by
    have htags : exampleInstance.at? "Tags" = some (.list
        [exampleTag "Team" "ops", exampleTag "aws:owner" "x", exampleTag "Name" "web"]) := rfl
    have hkeys : (tagsAt exampleInstance).map Prod.fst = ["Team", "aws:owner", "Name"] := rfl
    refine ⟨.inr (.inr ⟨_, htags, by simp [isTag_example]⟩), ?_⟩
    rw [hkeys]
    decide
  mappings := by
    have hmappings : exampleInstance.at? "BlockDeviceMappings" = some (.list
        [exampleMapping "/dev/xvda" "vol-1", .object [("DeviceName", .text "/dev/sdb")],
          exampleMapping "/dev/sdh" "vol-2", exampleMapping "/dev/sdh" "vol-3"]) := rfl
    have hbare : (Value.object [("DeviceName", .text "/dev/sdb")]).at? "Ebs" = none := rfl
    refine .inr ⟨_, hmappings, ?_⟩
    simp only [List.forall_mem_cons, isMapping_example, true_and]
    refine ⟨⟨⟨_, rfl⟩, ?_, ?_⟩, fun m hm => absurd hm List.not_mem_nil⟩
    · rw [hbare]
      exact fun ebs hebs => absurd hebs.symm (Option.some_ne_none ebs)
    · rw [hbare]
      exact fun hsome => absurd hsome Bool.false_ne_true
  rootDevice := by
    have hroot : exampleInstance.at? "RootDeviceName" = some (.text "/dev/sdh") := rfl
    rintro w hw
    exact .inr ⟨_, Option.some.inj (hw.symm.trans hroot)⟩
  groups := .inl rfl
  profile := .absent rfl
  options := .absent rfl
  monitoring := .absent rfl

/-- The third mapping is the root; the first and the last become further volumes, although the last
has the device of the root. -/
theorem imports_of_twice_mapped :
    IsInstance exampleInstance ∧ (∀ e ∈ exampleVolumes, IsVolume e.2) ∧
      furtherMappings exampleInstance =
        [exampleMapping "/dev/xvda" "vol-1", exampleMapping "/dev/sdh" "vol-3"] ∧
      ∃ d, ofSnapshot exampleInstance (volumeTable exampleVolumes) {} (.text "staging") = .ok d ∧
        Imports exampleVolumes (.text "staging") exampleInstance d := by
  have hvolumes : ∀ e ∈ exampleVolumes, IsVolume e.2 := by
    have hnone : (Value.object [("Size", .ofInt 50)]).at? "Tags" = none := rfl
    rw [exampleVolumes, List.forall_mem_singleton]
    refine ⟨⟨_, rfl⟩, .inr (.inl hnone), ?_⟩
    rw [tagsAt, Value.itemsAt, hnone]
    exact List.nodup_nil
  exact ⟨isInstance_example, hvolumes, rfl,
    imports_of_described isInstance_example hvolumes {} (.text "staging")⟩

end InstanceInventory.Record
