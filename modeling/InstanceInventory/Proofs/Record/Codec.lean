import InstanceInventory.Record.Attributes
import InstanceInventory.Proofs.Literal.Rendering

/-! # Records read back

* `InstanceRecord.TagsClear`: the custom tags of a record use none of the standard keys.
* `ofAttributes_draft`: the attributes of such a record describe that record.
* `attributes_plain`: what a record says in the document is a plain value.
* `parse_block`: the block of a record, at any indentation, describes the record under its key.
* `parse_tagsClear`: a record that any block describes has clear tags.
-/

namespace InstanceInventory
set_option autoImplicit false

/-! ## Tags -/

theorem Pairs.set_of_not_mem {α : Type} {es : List (String × α)} {key : String}
    (hk : key ∉ es.map Prod.fst) (value : α) : Pairs.set es key value = es ++ [(key, value)] := by
  induction es with
  | nil => rfl
  | cons e es ih =>
    rw [List.map_cons, List.mem_cons, not_or] at hk
    rw [Pairs.set, if_neg (fun h => hk.1 h.symm), ih hk.2]
    rfl

theorem Tags.foldl_set_entries (t : Tags) {es : List (String × String)}
    (h : ((t.entries ++ es).map Prod.fst).Nodup) :
    (es.foldl (fun t e => t.set e.1 e.2) t).entries = t.entries ++ es := by
  induction es generalizing t with
  | nil => rw [List.foldl_nil, List.append_nil]
  | cons e es ih =>
    have hk : e.1 ∉ t.entries.map Prod.fst := by
      rw [List.map_append, List.nodup_append] at h
      exact fun hk => h.2.2 _ hk _ (List.mem_cons_self ..) rfl
    have hset : (t.set e.1 e.2).entries = t.entries ++ [e] := Pairs.set_of_not_mem hk e.2
    have e' : t.entries ++ [e] ++ es = t.entries ++ e :: es := by
      rw [List.append_assoc, List.singleton_append]
    rw [List.foldl_cons, ih (t.set e.1 e.2) (by rw [hset, e']; exact h), hset, e']

theorem Tags.entries_ofPairs {es : List (String × String)} (h : (es.map Prod.fst).Nodup) :
    (Tags.ofPairs es).entries = es :=
  Tags.foldl_set_entries .empty h

theorem Tags.ext_entries {t u : Tags} (h : t.entries = u.entries) : t = u := by
  cases t
  cases u
  cases h
  rfl

/-- The custom tags of a record use none of the standard keys. -/
def InstanceRecord.TagsClear (r : InstanceRecord) : Prop :=
  ∀ k ∈ r.tags.keys, k ∉ standardTagKeys

instance (r : InstanceRecord) : Decidable r.TagsClear :=
  inferInstanceAs (Decidable (∀ k ∈ r.tags.keys, k ∉ standardTagKeys))

namespace InstanceRecord

/-- The pairs of the tags that every instance has. -/
def standardPairs (r : InstanceRecord) : List (String × String) :=
  [("Name", r.name), ("Terraform", "true"), ("Environment", r.environment)]

theorem keys_standardPairs (r : InstanceRecord) :
    r.standardPairs.map Prod.fst = standardTagKeys := rfl

/-- The pairs of the tags of a record that do not use a standard key. -/
def customPairs (r : InstanceRecord) : List (String × String) :=
  r.tags.entries.filter fun e => !standardTagKeys.contains e.1

def textFields (es : List (String × String)) : Fields :=
  es.map fun e => (e.1, .text e.2)

theorem allTags_draft (r : InstanceRecord) :
    r.draft.allTags = textFields (r.standardPairs ++ r.customPairs) := by
  have hfields : r.draft.tags.filter (fun e => !standardTagKeys.contains e.1) =
      textFields r.customPairs :=
    List.filter_map
  rw [Draft.allTags, hfields]
  simp only [textFields, List.map_append]
  rfl

theorem nodup_allTags (r : InstanceRecord) :
    ((r.standardPairs ++ r.customPairs).map Prod.fst).Nodup := by
  rw [List.map_append, keys_standardPairs, List.nodup_append]
  refine ⟨by decide, r.tags.nodup_keys.sublist (List.filter_sublist.map Prod.fst), ?_⟩
  rintro k hk l hl rfl
  obtain ⟨e, he, rfl⟩ := List.mem_map.1 hl
  have hcustom := (List.mem_filter.1 he).2
  rw [List.contains_iff_mem.2 hk] at hcustom
  exact absurd hcustom (by decide)

theorem customPairs_of_tagsClear {r : InstanceRecord} (h : r.TagsClear) :
    r.customPairs = r.tags.entries := by
  rw [customPairs, List.filter_eq_self]
  intro e he
  have hk := h e.1 (List.mem_map_of_mem he)
  simpa using hk

end InstanceRecord

/-! ## Attributes read back -/

namespace Record

theorem allTextFields?_textFields (es : List (String × String)) :
    allTextFields? (InstanceRecord.textFields es) = some es := by
  induction es with
  | nil => rfl
  | cons e es ih =>
    change (allTextFields? (InstanceRecord.textFields es)).map (e :: ·) = _
    rw [ih]
    rfl

theorem allTexts?_map (ss : List String) : allTexts? (ss.map .text) = some ss := by
  induction ss with
  | nil => rfl
  | cons s ss ih =>
    rw [List.map_cons, allTexts?, ih]
    rfl

theorem asVolume_attributes (index : Nat) (v : ExtraVolume) :
    asVolume index v.draft.attributes = .ok v := by
  simp [asVolume, DraftVolume.attributes, ExtraVolume.draft, take, takeOr, demandField, Pairs.get?, asText, asInteger, asFlag, Value.ofInt, Except.bind, bind, pure, Except.pure]

theorem asVolumes_attributes (index : Nat) (vs : List ExtraVolume) :
    asVolumes index (vs.map fun v => v.draft.attributes) = .ok vs := by
  induction vs generalizing index with
  | nil => rfl
  | cons v vs ih =>
    rw [List.map_cons, asVolumes, asVolume_attributes]
    simp only [bind, Except.bind, ih]
    rfl

theorem asTags_textFields (name : String) {es : List (String × String)}
    (h : (es.map Prod.fst).Nodup) :
    asTags name (.object (InstanceRecord.textFields es)) = .ok ⟨es, h⟩ := by
  have htags : Tags.ofPairs es = ⟨es, h⟩ := Tags.ext_entries (Tags.entries_ofPairs h)
  simp only [asTags, asObject, bind, Except.bind, allTextFields?_textFields, htags]
  rfl

theorem asText?_ofText? (name : String) (s : Option String) :
    asText? name (.ofText? s) = .ok s := by
  cases s <;> rfl

theorem enabledText_beq (on : Bool) : (enabledText on == "enabled") = on := by
  cases on <;> decide

theorem requiredText_beq (required : Bool) : (requiredText required == "required") = required := by
  cases required <;> decide

theorem rootVolumeOf_attributes (r : InstanceRecord) :
    rootVolumeOf r.draft.attributes = .ok r.rootVolume := by
  have htags : asTags "root_volume_tags" (.object r.draft.rootTags) = .ok r.rootVolume.tags :=
    asTags_textFields _ r.rootVolume.tags.nodup_keys
  simp [rootVolumeOf, Draft.attributes, takeOr, Pairs.get?, htags, bind, Except.bind]
  simp [InstanceRecord.draft, asInteger, asText, asFlag, Value.ofInt, pure, Except.pure]

theorem metadataPolicyOf_attributes (r : InstanceRecord) :
    metadataPolicyOf r.draft.attributes = .ok r.metadataPolicy := by
  simp [metadataPolicyOf, Draft.attributes, takeOr, Pairs.get?, bind, Except.bind,
    InstanceRecord.draft, asInteger, asText, Value.ofInt, pure, Except.pure,
    Value.isTruthy, enabledText_beq, requiredText_beq]

theorem ofAttributes_draft {r : InstanceRecord} (h : r.TagsClear) :
    ofAttributes r.draft.attributes = .ok r := by
  have htags : asTags "tags" (.object r.draft.allTags) = .ok ⟨_, r.nodup_allTags⟩ := by
    rw [r.allTags_draft]
    exact asTags_textFields _ r.nodup_allTags
  have hcustom : Tags.filterKeys ⟨_, r.nodup_allTags⟩ (fun k => !standardTagKeys.contains k) =
      r.tags := by
    refine Tags.ext_entries ?_
    change (r.standardPairs ++ r.customPairs).filter (fun e => !standardTagKeys.contains e.1) = _
    have hstandard : r.standardPairs.filter (fun e => !standardTagKeys.contains e.1) = [] := rfl
    rw [List.filter_append, hstandard, InstanceRecord.customPairs, List.filter_filter]
    simp only [Bool.and_self]
    exact InstanceRecord.customPairs_of_tagsClear h
  have hvolumes : asVolumes 1 (r.draft.extraVolumes.map DraftVolume.attributes) =
      .ok r.extraVolumes := by
    have hmap : r.draft.extraVolumes.map DraftVolume.attributes =
        r.extraVolumes.map fun v => v.draft.attributes := List.map_map
    rw [hmap, asVolumes_attributes]
  have hgroups : allTexts? r.draft.securityGroupIds = some r.network.securityGroupIds :=
    allTexts?_map _
  have hroot := rootVolumeOf_attributes r
  have hmetadata := metadataPolicyOf_attributes r
  have hname : Tags.get? ⟨_, r.nodup_allTags⟩ "Name" = some r.name := rfl
  have henvironment : Tags.get? ⟨_, r.nodup_allTags⟩ "Environment" = some r.environment := rfl
  have hprivateIp : asText? "private_ip" r.draft.privateIp = .ok r.network.privateIp :=
    asText?_ofText? _ _
  have hprofile : asText? "iam_instance_profile" r.draft.iamProfile = .ok r.identity.iamProfile :=
    asText?_ofText? _ _
  have hkeyName : asText? "key_name" r.draft.keyName = .ok r.identity.keyName :=
    asText?_ofText? _ _
  have huserData : asText? "user_data_path" r.draft.userDataPath = .ok r.userDataPath :=
    asText?_ofText? _ _
  simp only [ofAttributes, hroot, hmetadata, take, takeOr, demandField]
  simp only [Draft.attributes, Pairs.get?, List.find?_cons, String.reduceBEq, Option.map_some,
    bind, Except.bind, htags, hname, asList, hvolumes, hgroups, henvironment, hcustom, hprivateIp,
    hprofile, hkeyName, huserData]
  rfl

end Record

/-! ## Plain values -/

theorem Value.fieldsPlain_of_forall {fs : Fields} (h : ∀ f ∈ fs, f.2.IsPlain) :
    Value.FieldsPlain fs := by
  induction fs with
  | nil => trivial
  | cons f fs ih =>
    exact ⟨h f (List.mem_cons_self ..), ih fun g hg => h g (List.mem_cons_of_mem f hg)⟩

theorem Value.arePlain_of_forall {vs : List Value} (h : ∀ v ∈ vs, v.IsPlain) :
    Value.ArePlain vs := by
  induction vs with
  | nil => trivial
  | cons v vs ih =>
    exact ⟨h v (List.mem_cons_self ..), ih fun w hw => h w (List.mem_cons_of_mem v hw)⟩

theorem Value.isPlain_ofText? (s : Option String) : (Value.ofText? s).IsPlain := by
  cases s <;> trivial

namespace InstanceRecord

theorem isPlain_textFields {es : List (String × String)} (h : (es.map Prod.fst).Nodup) :
    (Value.object (textFields es)).IsPlain := by
  refine ⟨?_, Value.fieldsPlain_of_forall fun f hf => ?_⟩
  · have hkeys : (textFields es).map Prod.fst = es.map Prod.fst := List.map_map
    rwa [hkeys]
  · obtain ⟨e, -, rfl⟩ := List.mem_map.1 hf
    trivial

theorem isPlain_allTags (r : InstanceRecord) : (Value.object r.draft.allTags).IsPlain := by
  rw [r.allTags_draft]
  exact isPlain_textFields r.nodup_allTags

end InstanceRecord

theorem ExtraVolume.isPlain_attributes (v : ExtraVolume) : v.draft.attributes.IsPlain := by
  refine ⟨?_, trivial, trivial, trivial, trivial, trivial, trivial, trivial⟩
  simp only [List.map_cons, List.map_nil]
  decide

/-- What a record says in the document is a plain value. -/
theorem InstanceRecord.isPlain_attributes (r : InstanceRecord) :
    (Value.object r.draft.attributes).IsPlain := by
  have hkeys : (r.draft.attributes.map Prod.fst).Nodup := by
    simp only [Draft.attributes, List.map_cons, List.map_nil]
    decide
  have hgroups : (Value.list r.draft.securityGroupIds).IsPlain := by
    refine Value.arePlain_of_forall fun v hv => ?_
    obtain ⟨s, -, rfl⟩ := List.mem_map.1 hv
    trivial
  have hvolumes : (Value.list (r.draft.extraVolumes.map DraftVolume.attributes)).IsPlain := by
    refine Value.arePlain_of_forall fun v hv => ?_
    obtain ⟨w, hw, rfl⟩ := List.mem_map.1 hv
    obtain ⟨x, -, rfl⟩ := List.mem_map.1 hw
    exact x.isPlain_attributes
  have hprivateIp : r.draft.privateIp.IsPlain := Value.isPlain_ofText? _
  have hprofile : r.draft.iamProfile.IsPlain := Value.isPlain_ofText? _
  have hkeyName : r.draft.keyName.IsPlain := Value.isPlain_ofText? _
  have huserData : r.draft.userDataPath.IsPlain := Value.isPlain_ofText? _
  exact ⟨hkeys, trivial, trivial, trivial, trivial, hgroups, hprofile, hkeyName, hprivateIp,
    trivial, trivial, trivial, trivial, isPlain_textFields r.rootVolume.tags.nodup_keys, hvolumes,
    huserData, trivial, trivial, trivial, trivial, trivial, trivial, r.isPlain_allTags, trivial⟩

/-! ## Blocks read back -/

theorem parse_renderEntry {r : InstanceRecord} (h : r.TagsClear) (level : Int) (key : String) :
    Record.parse (Literal.renderEntry level key (.object r.draft.attributes)) =
      .ok (.ok (key, r)) := by
  have hentry := Literal.parseEntry_renderEntry level key _ r.isPlain_attributes
  rw [Record.parse, hentry]
  simp only [Record.ofAttributes_draft h]

theorem parse_block {r : InstanceRecord} (h : r.TagsClear) (level : Int) :
    Record.parse (r.block level) = .ok (.ok (r.key, r)) :=
  parse_renderEntry h level r.key

theorem forall_of_bind {ε α β : Type} {P : β → Prop} {x : Except ε α} {f : α → Except ε β}
    (h : ∀ a b, f a = .ok b → P b) : ∀ b, x >>= f = .ok b → P b := by
  cases x with
  | error e => exact fun _ he => nomatch he
  | ok a => exact h a

theorem tagsClear_of_filterKeys {r : InstanceRecord} {t : Tags}
    (h : r.tags = t.filterKeys fun k => !standardTagKeys.contains k) : r.TagsClear := by
  intro k hk
  rw [h] at hk
  obtain ⟨e, he, rfl⟩ := List.mem_map.1 hk
  have hcustom := (List.mem_filter.1 he).2
  simpa using hcustom

/-- A record that attributes describe has clear tags. -/
theorem tagsClear_of_ofAttributes {fields : Fields} :
    ∀ r, Record.ofAttributes fields = .ok r → r.TagsClear := by
  refine forall_of_bind fun tags => ?_
  -- Every way to a record ends with the same filter of the tags.
  repeat' first
    | refine forall_of_bind fun _ => ?_
    | split
  all_goals
    intro r hr
    cases hr
    exact tagsClear_of_filterKeys rfl

theorem tagsClear_of_parse {text key : String} {r : InstanceRecord}
    (h : Record.parse text = .ok (.ok (key, r))) : r.TagsClear := by
  unfold Record.parse at h
  split at h
  · cases h
  · cases h
  · split at h
    · next hr =>
      cases h
      exact tagsClear_of_ofAttributes r hr
    · cases h
  · cases h

/-- Reading a block undoes writing it: at every indentation for a record with clear tags, and so for
every record that any text describes. -/
theorem block_round_trip :
    (∀ (r : InstanceRecord) (level : Int), r.TagsClear →
      Record.parse (r.block level) = .ok (.ok (r.key, r))) ∧
    (∀ (text key : String) (r : InstanceRecord), Record.parse text = .ok (.ok (key, r)) →
      Record.parse (r.block Record.blockLevel) = .ok (.ok (r.key, r))) :=
  ⟨fun _ level h => parse_block h level,
    fun _ _ _ h => parse_block (tagsClear_of_parse h) Record.blockLevel⟩

/-- A record with a further volume, a template in its name and braces in its tags. -/
def exampleRecord : InstanceRecord where
  name := "web $\x7b1\x7d"
  image := "ami-1"
  instanceClass := "t3.micro"
  network := ⟨"subnet-1", "vpc-1", none, ["sg-1", "sg-2"]⟩
  extraVolumes := [⟨"/dev/sdf", 100, "gp3", true, false, "volume-1"⟩]
  tags := ⟨[("true", "\x7d"), ("1st", "a\nb")], by decide⟩

theorem block_round_trip_example :
    Record.parse (exampleRecord.block 0) = .ok (.ok (exampleRecord.key, exampleRecord)) ∧
    Record.parse (Literal.renderEntry 1 "other" (.object exampleRecord.draft.attributes)) =
      .ok (.ok ("other", exampleRecord)) ∧
    Record.parse (exampleRecord.block 2) = .ok (.ok (exampleRecord.key, exampleRecord)) := by
  have hclear : exampleRecord.TagsClear := by decide
  have hother : Record.parse (Literal.renderEntry 1 "other"
      (.object exampleRecord.draft.attributes)) = .ok (.ok ("other", exampleRecord)) :=
    parse_renderEntry hclear 1 "other"
  exact ⟨block_round_trip.1 exampleRecord 0 hclear, hother,
    block_round_trip.2 _ "other" exampleRecord hother⟩

end InstanceInventory
