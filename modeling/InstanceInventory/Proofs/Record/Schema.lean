import InstanceInventory.Proofs.Record.Key
import InstanceInventory.Proofs.Record.Validated

/-! # The schema of records

* `Rule`, `Rule.Holds`: what the schema asks of one element of a record, and when it is met.
* `InstanceRecord.rules`: the rules for the elements of a record, in the order of its fields.
* `InstanceRecord.InSchema`: the records that meet the schema.
* `InstanceRecord.validate_reports_broken_rules`: validation passes the records of the schema, and
  reports one problem for each rule that another record breaks.
-/

namespace InstanceInventory
set_option autoImplicit false
open Record

namespace Record
variable {s name id : String} {c : Char} {cs : List Char}

/-! ## Rules -/

/-- A text holds something besides blanks. -/
def Given (s : String) : Prop :=
  ∃ c ∈ s.toList, Text.isBlank c = false

/-- A name can be told apart by its letters and digits. -/
def Usable (name : String) : Prop :=
  ∃ c ∈ name.toList, c.isAlphanum = true

/-- The id of a security group: `sg-` and digits from `0` to `f`. One newline after them is let
through. -/
def IsGroupId (id : String) : Prop :=
  ∃ digits ending : List Char, id.toList = "sg-".toList ++ digits ++ ending ∧ digits ≠ [] ∧
    (∀ c ∈ digits, ('0' ≤ c ∧ c ≤ '9') ∨ ('a' ≤ c ∧ c ≤ 'f')) ∧ (ending = [] ∨ ending = ['\n'])

/-- What the schema asks of one element of a record. -/
inductive Rule where
  | name (name : String)
  | given (label s : String)
  | group (id : String)
  | rootSize (size : Int)
  | volumeSize (device : String) (size : Int)
  | devicePrefix (device : String)
  | ownDevice (before : List String) (device : String)
  | hopLimit (limit : Int)
  | tagKey (key : String)
  | environment (s : String)

/-- An element is as a rule asks. -/
def Rule.Holds : Rule → Prop
  | .name name => Usable name
  | .given _ s => Given s
  | .group id => IsGroupId id
  | .rootSize size => 0 < size
  | .volumeSize _ size => 0 < size
  | .devicePrefix device => "/dev/".toList <+: device.toList
  | .ownDevice before device => device ∉ before
  | .hopLimit limit => 1 ≤ limit ∧ limit ≤ 64
  | .tagKey key => Given key ∧ key ∉ ["Name", "Terraform", "Environment"]
  | .environment s => Given s

/-- The problem of an element that breaks a rule. -/
def Rule.problem : Rule → Problem
  | .name name => if Text.isBlankText name then .emptyName else .emptyKey name
  | .given label _ => .emptyField label
  | .group id => .invalidGroup id
  | .rootSize _ => .rootSize
  | .volumeSize device _ => .volumeSize device
  | .devicePrefix device => .devicePrefix device
  | .ownDevice _ device => .repeatedDevice device
  | .hopLimit _ => .hopLimit
  | .tagKey key => if Text.isBlankText key then .emptyTagKey else .standardTagKey key
  | .environment _ => .emptyEnvironment

/-! ## Rules as the validation checks them -/

theorem given_iff : Given s ↔ Text.isBlankText s = false := by
  rw [Text.isBlankText, Text.allBlank, List.all_eq_false]
  simp [Given]

/-- A key is more than underscores where the name holds a letter or a digit. -/
theorem usable_iff : Usable name ↔ (keyOf name).toList.any (· != '_') = true := by
  rw [keyOf, String.toList_ofList, any_keyFrom]
  constructor
  · rintro ⟨c, hmem, hc⟩
    exact ⟨c, Text.mem_trimChars hmem (not_blank_of_isAlphanum hc), hc⟩
  · rintro ⟨c, hmem, hc⟩
    exact ⟨c, Text.trimChars_subset hmem, hc⟩

theorem isLowerHexDigit_iff :
    isLowerHexDigit c = true ↔ ('0' ≤ c ∧ c ≤ '9') ∨ ('a' ≤ c ∧ c ≤ 'f') := by
  simp [isLowerHexDigit]

theorem exists_dropFinalNewline (cs : List Char) :
    ∃ ending, cs = dropFinalNewline cs ++ ending ∧ (ending = [] ∨ ending = ['\n']) := by
  unfold dropFinalNewline
  split_ifs with hlast
  · obtain ⟨ds, rfl⟩ := List.getLast?_eq_some_iff.1 hlast
    exact ⟨['\n'], by rw [List.dropLast_concat], .inr rfl⟩
  · exact ⟨[], (List.append_nil cs).symm, .inl rfl⟩

theorem dropFinalNewline_append {ending : List Char} (hcs : '\n' ∉ cs)
    (hending : ending = [] ∨ ending = ['\n']) : dropFinalNewline (cs ++ ending) = cs := by
  unfold dropFinalNewline
  rcases hending with rfl | rfl
  · rw [List.append_nil, if_neg fun hlast => hcs (List.mem_of_getLast? hlast)]
  · rw [if_pos (List.getLast?_concat ..), List.dropLast_concat]

theorem isGroupId_iff : IsGroupId id ↔ isSecurityGroupId id = true := by
  constructor
  · rintro ⟨digits, ending, hid, hsome, hdigits, hending⟩
    have hnewline : '\n' ∉ "sg-".toList ++ digits := by
      rw [List.mem_append, not_or]
      refine ⟨by decide, fun hmem => ?_⟩
      exact absurd (hdigits _ hmem) (by decide)
    rw [isSecurityGroupId, hid, dropFinalNewline_append hnewline hending]
    show (!digits.isEmpty && digits.all isLowerHexDigit) = true
    rw [Bool.and_eq_true]
    exact ⟨by simpa using hsome, List.all_eq_true.2 fun c hc => isLowerHexDigit_iff.2 (hdigits c hc)⟩
  · intro h
    unfold isSecurityGroupId at h
    split at h
    · next digits hdigits =>
      rw [Bool.and_eq_true] at h
      obtain ⟨ending, hid, hending⟩ := exists_dropFinalNewline id.toList
      rw [hdigits] at hid
      refine ⟨digits, ending, hid, by simpa using h.1, fun c hc => ?_, hending⟩
      exact isLowerHexDigit_iff.1 (List.all_eq_true.1 h.2 c hc)
    · cases h

/-- Whether an element is as a rule asks. -/
def Rule.check : Rule → Bool
  | .name name => (keyOf name).toList.any (· != '_')
  | .given _ s | .environment s => !Text.isBlankText s
  | .group id => isSecurityGroupId id
  | .rootSize size | .volumeSize _ size => 0 < size
  | .devicePrefix device => "/dev/".toList.isPrefixOf device.toList
  | .ownDevice before device => !before.contains device
  | .hopLimit limit => 1 ≤ limit ∧ limit ≤ 64
  | .tagKey key => !Text.isBlankText key && !standardTagKeys.contains key

theorem Rule.holds_iff (rule : Rule) : rule.Holds ↔ rule.check = true := by
  cases rule with
  | name name => exact usable_iff
  | given label s => simp [Holds, check, given_iff]
  | environment s => simp [Holds, check, given_iff]
  | group id => exact isGroupId_iff
  | rootSize size => simp [Holds, check]
  | volumeSize device size => simp [Holds, check]
  | devicePrefix device => exact List.isPrefixOf_iff_prefix.symm
  | ownDevice before device => simp [Holds, check]
  | hopLimit limit => simp [Holds, check]
  | tagKey key => simp [Holds, check, given_iff, standardTagKeys]

instance : DecidablePred Rule.Holds :=
  fun rule => decidable_of_iff _ rule.holds_iff.symm

/-- What the validation finds at one element. -/
def Rule.found (rule : Rule) : List Problem :=
  demand rule.check rule.problem

theorem nameProblems_eq (name : String) : nameProblems name = (Rule.name name).found := by
  have hfound : (Rule.name name).found = demand ((keyOf name).toList.any (· != '_'))
      (if Text.isBlankText name then .emptyName else .emptyKey name) := rfl
  rw [nameProblems, hfound]
  by_cases hblank : Text.isBlankText name = true
  · -- A blank name breaks the rule like any other name without a usable key; only its problem differs.
    have hcheck : ¬ (keyOf name).toList.any (· != '_') = true := by
      rw [← usable_iff]
      rintro ⟨c, hmem, hc⟩
      have hgiven : Given name := ⟨c, hmem, not_blank_of_isAlphanum hc⟩
      rw [given_iff, hblank] at hgiven
      cases hgiven
    rw [if_pos hblank, if_pos hblank, demand, if_neg hcheck]
  · rw [if_neg hblank, if_neg hblank]

theorem tagProblems_eq (key : String) : tagProblems key = (Rule.tagKey key).found := by
  have hfound : (Rule.tagKey key).found =
      demand (!Text.isBlankText key && !standardTagKeys.contains key)
        (if Text.isBlankText key then .emptyTagKey else .standardTagKey key) := rfl
  rw [tagProblems, hfound]
  by_cases hblank : Text.isBlankText key = true
  · rw [if_pos hblank, if_pos hblank, hblank]
    rfl
  · rw [if_neg hblank, if_neg hblank, show Text.isBlankText key = false by simpa using hblank]
    rfl

theorem givenProblems_text (label s : String) :
    givenProblems label (.text s) = .ok (Rule.given label s).found := by
  rw [givenProblems]
  by_cases hs : (Value.text s).isTruthy = true
  · rw [if_pos hs]
    rfl
  · have hempty : s = "" := by simpa [Value.isTruthy] using hs
    subst hempty
    rfl

theorem groupsProblems_texts (ids : List String) :
    groupsProblems (ids.map .text) = .ok ((ids.map Rule.group).flatMap Rule.found) := by
  induction ids with
  | nil => rfl
  | cons id ids ih =>
    simp only [List.map_cons, groupsProblems, groupProblems, ih, List.flatMap_cons]
    rfl

/-- The rules for further volumes, after volumes with the devices `before`. -/
def volumeRules (before : List String) : List ExtraVolume → List Rule
  | [] => []
  | v :: vs =>
    [.volumeSize v.devicePath v.sizeGib, .devicePrefix v.devicePath, .ownDevice before v.devicePath] ++
      volumeRules (v.devicePath :: before) vs

theorem isPositive_ofInt (n : Int) : isPositive (.ofInt n) = .ok (decide (0 < n)) := by
  have hmost : (Number.int n).atMost 0 = !decide (0 < n) := rfl
  rw [isPositive, Value.ofInt, Value.asNumber, Value.asNumber?]
  simp only [Except.map, hmost, Bool.not_not]

theorem isHopLimit_ofInt (n : Int) :
    isHopLimit (.ofInt n) = .ok (Rule.hopLimit n).check := by
  have hleast : (Number.int n).atLeast 1 = !decide (n < 1) := rfl
  have hmost : (Number.int n).atMost 64 = !decide (64 < n) := rfl
  have hcheck : (Rule.hopLimit n).check = decide (1 ≤ n ∧ n ≤ 64) := rfl
  rw [isHopLimit, Value.ofInt, Value.asNumber, Value.asNumber?, hcheck]
  simp only [Except.map, hleast, hmost]
  rw [Bool.decide_and, ← decide_not, ← decide_not]
  simp only [Int.not_lt]

theorem volumeProblems_draft (before : List String) (vs : List ExtraVolume) :
    volumeProblems before (vs.map ExtraVolume.draft) =
      .ok ((volumeRules before vs).flatMap Rule.found) := by
  induction vs generalizing before with
  | nil => rfl
  | cons v vs ih =>
    have hsize : isPositive v.draft.sizeGib = .ok (decide (0 < v.sizeGib)) := isPositive_ofInt _
    have hdevice : v.draft.devicePath.asText = .ok v.devicePath := rfl
    rw [List.map_cons, volumeProblems, hsize, hdevice]
    simp only [bind, Except.bind, pure, Except.pure]
    rw [ih]
    simp only [volumeRules, List.flatMap_append, List.flatMap_cons, List.flatMap_nil, List.append_nil,
      List.append_assoc]
    rfl

end Record

namespace InstanceRecord

/-- The rules for the elements of a record, in the order of its fields. -/
def rules (r : InstanceRecord) : List Rule :=
  [.name r.name, .given "image" r.image, .given "instance type" r.instanceClass,
    .given "subnet id" r.network.subnetId, .given "VPC id" r.network.vpcId] ++
  r.network.securityGroupIds.map .group ++ [.rootSize r.rootVolume.sizeGib] ++
  volumeRules [] r.extraVolumes ++ [.hopLimit r.metadataPolicy.hopLimit] ++
  r.tags.keys.map .tagKey ++ [.environment r.environment]

theorem problems_draft (r : InstanceRecord) : r.draft.problems = .ok (r.rules.flatMap Rule.found) := by
  have htags : (r.draft.tags.flatMap fun e => tagProblems e.1) =
      (r.tags.keys.map Rule.tagKey).flatMap Rule.found := by
    show (r.tags.entries.map fun e => (e.1, Value.text e.2)).flatMap (fun e => tagProblems e.1) = _
    simp only [Tags.keys, List.flatMap_map, tagProblems_eq]
  have hname : r.draft.name.asText = .ok r.name := rfl
  have henvironment : r.draft.environment.asText = .ok r.environment := rfl
  have hgroups : groupsProblems r.draft.securityGroupIds = _ := groupsProblems_texts _
  have hroot : isPositive r.draft.rootSizeGib = _ := isPositive_ofInt _
  have hvolumes : volumeProblems [] r.draft.extraVolumes = _ := volumeProblems_draft [] _
  have hhops : isHopLimit r.draft.hopLimit = _ := isHopLimit_ofInt _
  have himage : givenProblems "image" r.draft.image = _ := givenProblems_text _ _
  have hclass : givenProblems "instance type" r.draft.instanceClass = _ := givenProblems_text _ _
  have hsubnet : givenProblems "subnet id" r.draft.subnetId = _ := givenProblems_text _ _
  have hvpc : givenProblems "VPC id" r.draft.vpcId = _ := givenProblems_text _ _
  rw [Draft.problems, hname, henvironment, hgroups, hroot, hvolumes, hhops, himage, hclass, hsubnet,
    hvpc, htags]
  simp only [bind, Except.bind, pure, Except.pure, nameProblems_eq]
  simp only [rules, List.flatMap_append, List.flatMap_cons, List.flatMap_nil, List.append_nil,
    List.append_assoc]
  rfl

/-- The rules that elements of a record break. -/
def broken (r : InstanceRecord) : List Rule :=
  r.rules.filter fun rule => ¬ rule.Holds

theorem found_eq (rule : Rule) : rule.found = if rule.Holds then [] else [rule.problem] := by
  rw [Rule.found, demand, if_congr rule.holds_iff.symm rfl rfl]

theorem flatMap_found (rules : List Rule) :
    rules.flatMap Rule.found = (rules.filter fun rule => ¬ rule.Holds).map Rule.problem := by
  induction rules with
  | nil => rfl
  | cons rule rules ih =>
    rw [List.flatMap_cons, found_eq, ih]
    by_cases hrule : rule.Holds
    · rw [if_pos hrule, List.filter_cons_of_neg (by simpa using hrule), List.nil_append]
    · rw [if_neg hrule, List.filter_cons_of_pos (by simpa using hrule), List.map_cons,
        List.singleton_append]

/-- A record without problems breaks no rule; what another one breaks is reported. -/
theorem validate_draft (r : InstanceRecord) : r.draft.validate =
    if r.broken = [] then .ok ()
    else .error (.report (.invalidRecord (r.broken.map fun rule => rule.problem.message))) := by
  rw [Draft.validate, problems_draft, flatMap_found, ← broken]
  cases r.broken with
  | nil => rfl
  | cons rule rules =>
    rw [if_neg (List.cons_ne_nil _ _)]
    simp

/-! ## The schema -/

/-- The records that meet the schema. -/
structure InSchema (r : InstanceRecord) : Prop where
  name : Usable r.name
  image : Given r.image
  instanceClass : Given r.instanceClass
  subnet : Given r.network.subnetId
  vpc : Given r.network.vpcId
  groups : ∀ id ∈ r.network.securityGroupIds, IsGroupId id
  rootSize : 0 < r.rootVolume.sizeGib
  sizes : ∀ v ∈ r.extraVolumes, 0 < v.sizeGib
  prefixes : ∀ v ∈ r.extraVolumes, "/dev/".toList <+: v.devicePath.toList
  devices : (r.extraVolumes.map ExtraVolume.devicePath).Nodup
  hopLimit : 1 ≤ r.metadataPolicy.hopLimit ∧ r.metadataPolicy.hopLimit ≤ 64
  tagKeys : ∀ k ∈ r.tags.keys, Given k ∧ k ∉ ["Name", "Terraform", "Environment"]
  environment : Given r.environment

theorem volumeRules_hold (before : List String) (vs : List ExtraVolume) :
    (∀ rule ∈ volumeRules before vs, rule.Holds) ↔
      (∀ v ∈ vs, 0 < v.sizeGib) ∧ (∀ v ∈ vs, "/dev/".toList <+: v.devicePath.toList) ∧
        (vs.map ExtraVolume.devicePath).Nodup ∧ ∀ v ∈ vs, v.devicePath ∉ before := by
  induction vs generalizing before with
  | nil => simp [volumeRules]
  | cons v vs ih =>
    simp only [volumeRules, List.cons_append, List.nil_append, List.forall_mem_cons, ih,
      List.map_cons, List.nodup_cons]
    have hown : ∀ ws : List ExtraVolume, v.devicePath ∉ ws.map ExtraVolume.devicePath ↔
        ∀ w ∈ ws, w.devicePath ≠ v.devicePath := by simp
    have hbefore : ∀ w : ExtraVolume, w.devicePath ∉ v.devicePath :: before ↔
        w.devicePath ≠ v.devicePath ∧ w.devicePath ∉ before := by simp
    simp only [hown, hbefore, forall_and]
    constructor
    · rintro ⟨hsize, hdev, hnew, hsizes, hprefixes, hdevices, hother, hnews⟩
      exact ⟨⟨hsize, hsizes⟩, ⟨hdev, hprefixes⟩, ⟨hother, hdevices⟩, hnew, hnews⟩
    · rintro ⟨⟨hsize, hsizes⟩, ⟨hdev, hprefixes⟩, ⟨hother, hdevices⟩, hnew, hnews⟩
      exact ⟨hsize, hdev, hnew, hsizes, hprefixes, hdevices, hother, hnews⟩

theorem rules_hold (r : InstanceRecord) : (∀ rule ∈ r.rules, rule.Holds) ↔ r.InSchema := by
  simp only [rules, List.forall_mem_append, List.forall_mem_cons, List.forall_mem_map,
    volumeRules_hold]
  constructor
  · rintro ⟨⟨⟨⟨⟨⟨⟨name, image, cls, subnet, vpc, -⟩, groups⟩, root, -⟩, sizes, prefixes, devices, -⟩,
      hops, -⟩, tags⟩, environment, -⟩
    exact ⟨name, image, cls, subnet, vpc, groups, root, sizes, prefixes, devices, hops, tags,
      environment⟩
  · rintro ⟨name, image, cls, subnet, vpc, groups, root, sizes, prefixes, devices, hops, tags,
      environment⟩
    exact ⟨⟨⟨⟨⟨⟨⟨name, image, cls, subnet, vpc, nofun⟩, groups⟩, root, nofun⟩, sizes, prefixes,
      devices, fun _ _ => List.not_mem_nil⟩, hops, nofun⟩, tags⟩, environment, nofun⟩

theorem broken_eq_nil_iff (r : InstanceRecord) : r.broken = [] ↔ r.InSchema := by
  rw [← rules_hold, broken, List.filter_eq_nil_iff]
  simp

theorem validate_eq_ok_iff (r : InstanceRecord) : r.draft.validate = .ok () ↔ r.InSchema := by
  rw [← broken_eq_nil_iff, validate_draft]
  constructor
  · intro h
    by_contra hbroken
    rw [if_neg hbroken] at h
    cases h
  · exact fun hbroken => if_pos hbroken

/-- Validation passes the records of the schema. Of any other record it reports every rule that an
element breaks, in the order of the rules, by one problem each. -/
theorem validate_reports_broken_rules (r : InstanceRecord) :
    (r.broken = [] ↔ r.InSchema) ∧
      r.draft.validate = if r.broken = [] then .ok ()
        else .error (.report (.invalidRecord (r.broken.map fun rule => rule.problem.message))) :=
  ⟨r.broken_eq_nil_iff, r.validate_draft⟩

example : (Rule.group "sg-0a").Holds ∧ (Rule.group "sg-0a\n").Holds ∧ ¬ (Rule.group "sg-0A").Holds := by
  decide

end InstanceRecord
end InstanceInventory
