import InstanceInventory.Proofs.Cloud.Images
import InstanceInventory.Proofs.Settings.Layers

/-! # Records that are asked for

* `Prompt.returns_required`, `Prompt.returns_size` and the like: what the answers to questions are
  checked for.
* `Settings.returns_load`: the environment of loaded settings is not blank.
* `Prompt.Collected`: what holds of a record that was asked for.
* `Prompt.collected_valid_iff`: such a record passes validation but for its name and the devices of
  its further volumes.
-/

namespace InstanceInventory
set_option autoImplicit false
open InstanceInventory.Action (Frame Keeps Returns returns_pure returns_throw)
open Session (Kept)
open Record (Given IsGroupId Usable)
variable {known : Session → Prop}

namespace Prompt

/-! ## Questions -/

theorem given_trim {t : String} (h : Text.trim t ≠ "") : Given (Text.trim t) := by
  have hchars : Text.trimChars t.toList ≠ [] := by
    intro hnil
    rw [Text.trim, hnil] at h
    exact h rfl
  obtain ⟨c, hmem, hc⟩ := Text.exists_of_trimChars hchars
  refine ⟨c, ?_, hc⟩
  rw [Text.trim, String.toList_ofList]
  exact Text.mem_trimChars hmem hc

section
variable [Frame.Answers (Kept known)]

/-- A text is the one that is offered, or empty, or not blank. -/
theorem returns_text_given {question : String} {offered : Option String}
    (hoffered : ∀ t ∈ offered, t ≠ "" → Given t) :
    (text question offered).Returns known fun t => t ≠ "" → Given t :=
  returns_text hoffered fun _ => given_trim

/-- A text that must be given is not blank. -/
theorem returns_required (question complaint : String) :
    (required question complaint).Returns known Given := by
  refine returns_untilDone (I := fun _ => True) (fun _ _ => ?_) trivial
  refine (returns_text_given fun _ h => absurd h (Option.not_mem_none _)).bind fun answer hanswer => ?_
  split
  · exact (Action.keeps_complain _).then_returns fun _ => returns_pure trivial
  · next hsome =>
    refine returns_pure (hanswer ?_)
    rintro rfl
    exact hsome rfl

theorem returns_name : name.Returns known Given :=
  returns_required _ _

theorem returns_value (question : String) : (value question).Returns known Given :=
  returns_required _ _

/-- A size is more than zero. -/
theorem returns_size (question : String) (offered : Int) :
    (size question offered).Returns known fun n => 0 < n := by
  refine returns_untilDone (I := fun _ => True) (fun _ _ => ?_) trivial
  refine (keeps_integer question offered).bind_returns fun n => ?_
  split
  · next hpos => exact returns_pure hpos
  · exact (Action.keeps_complain _).then_returns fun _ => returns_pure trivial

/-- Security groups are given by ids of their form. -/
theorem returns_securityGroups :
    securityGroups.Returns known fun ids => ∀ id ∈ ids, IsGroupId id := by
  unfold securityGroups
  refine (Action.keeps_status _).then_returns fun _ => ?_
  refine returns_untilDone (I := fun _ => True) (fun _ _ => ?_) trivial
  refine (keeps_text _ _).bind_returns fun answer => ?_
  dsimp only
  split
  · next hvalid =>
    refine returns_pure fun id hid => Record.isGroupId_iff.2 ?_
    by_contra hbad
    have hmem : id ∈ (Text.words answer).filter fun id => !Record.isSecurityGroupId id :=
      List.mem_filter.2 ⟨hid, by simpa using hbad⟩
    rw [List.isEmpty_iff.1 hvalid] at hmem
    cases hmem
  · exact (Action.keeps_displayAll _).then_returns fun _ =>
      returns_pure trivial

/-! ## Parts of a record -/

theorem returns_rootVolume : rootVolume.Returns known fun v => 0 < v.sizeGib := by
  unfold rootVolume
  refine (returns_size _ _).bind fun n hn => ?_
  refine (keeps_choice _ _ _).bind_returns fun _ => (keeps_confirm _ _).bind_returns fun _ => ?_
  exact returns_pure hn

theorem returns_extraVolume (number : Nat) :
    (extraVolume number).Returns known fun v => 0 < v.sizeGib := by
  unfold extraVolume
  refine (keeps_text _ _).bind_returns fun _ => (returns_size _ _).bind fun n hn => ?_
  refine (keeps_choice _ _ _).bind_returns fun _ => (keeps_confirm _ _).bind_returns fun _ =>
    (keeps_confirm _ _).bind_returns fun _ => ?_
  exact returns_pure hn

/-- However many further volumes are asked for, each has a size. -/
theorem returns_extraVolumes :
    extraVolumes.Returns known fun vs => ∀ v ∈ vs, 0 < v.sizeGib := by
  unfold extraVolumes
  refine (keeps_confirm _ _).bind_returns fun more => ?_
  split
  · -- A round adds one volume, whether it is the last one or not.
    refine returns_untilDone (I := fun vs => ∀ v ∈ vs, 0 < v.sizeGib) (fun vs hvs => ?_) nofun
    dsimp only
    refine (Action.keeps_say _).then_returns fun _ => ?_
    refine (returns_extraVolume _).bind fun v hv => ?_
    have hmore : ∀ w ∈ vs ++ [v], 0 < w.sizeGib :=
      List.forall_mem_append.2 ⟨hvs, List.forall_mem_singleton.2 hv⟩
    refine (Action.keeps_status _).then_returns fun _ =>
      (keeps_confirm _ _).bind_returns fun again => ?_
    split
    · exact returns_pure hmore
    · exact returns_pure hmore
  · exact returns_pure nofun

/-- However many tags are asked for, none has a blank or a standard key. -/
theorem returns_tags :
    tags.Returns known fun ts => ∀ k ∈ ts.keys, Given k ∧ k ∉ standardTagKeys := by
  unfold tags
  refine (Action.keeps_status _).then_returns fun _ => ?_
  refine returns_untilDone (I := fun ts => ∀ k ∈ ts.keys, Given k ∧ k ∉ standardTagKeys)
    (fun ts hts => ?_) nofun
  have hoffered : ∀ t ∈ some "", t ≠ "" → Given t := by
    rintro t ⟨⟩ hsome
    exact absurd rfl hsome
  refine (returns_text_given hoffered).bind fun key hkey => ?_
  split
  · exact returns_pure hts
  · next hsome =>
    split
    · exact (Action.keeps_warn _).then_returns fun _ => returns_pure hts
    · next hcustom =>
      refine (keeps_text _ _).bind_returns fun v => returns_pure fun k hk => ?_
      have hkeys : k ∈ ts.keys ∨ k = key := by
        rw [Tags.keys, Tags.set, Pairs.keys_set] at hk
        split at hk
        · exact .inl hk
        · exact (List.mem_append.1 hk).imp_right List.mem_singleton.1
      rcases hkeys with hk | rfl
      · exact hts k hk
      · refine ⟨hkey ?_, ?_⟩
        · rintro rfl
          exact hsome rfl
        · simpa using hcustom

end

/-! ## What the provider has to choose from -/

open Cloud (Images)

theorem returns_image (settings : Settings) (client : Cloud.Client) :
    (image settings client).Returns Images fun v => ∃ s, v = .text s ∧ Given s := by
  unfold image
  refine (Action.keeps_say _).then_returns fun _ =>
    (Action.keeps_drawAll _).bind_returns fun _ => ?_
  dsimp only
  refine (keeps_numberTo _ _).bind_returns fun number => ?_
  split
  · exact (returns_value _).bind fun s hs => returns_pure ⟨s, rfl, hs⟩
  · refine (Action.keeps_status _).then_returns fun _ => ?_
    refine (client.returns_findLatestImage _ _).bind fun found hfound => ?_
    split
    · next hpresent =>
      refine (Action.keeps_status _).then_returns fun _ => returns_pure ?_
      cases found with
      | none => cases hpresent
      | some v => exact hfound v rfl
    · exact returns_throw _

theorem returns_network (client : Cloud.Client) :
    (network client).Returns Images fun n =>
      Given n.subnetId ∧ Given n.vpcId ∧ ∀ id ∈ n.securityGroupIds, IsGroupId id := by
  unfold network
  refine client.keeps_listNetworks.bind_returns fun _ =>
    (keeps_showRows _ _ _).bind_returns fun _ => ?_
  refine (returns_value _).bind fun vpcId hvpc => ?_
  refine (client.keeps_listSubnets _).bind_returns fun _ =>
    (keeps_showRows _ _ _).bind_returns fun _ => ?_
  refine (returns_value _).bind fun subnetId hsubnet => ?_
  refine (client.keeps_listSecurityGroups _).bind_returns fun _ =>
    (keeps_showRows _ _ _).bind_returns fun _ => ?_
  exact returns_securityGroups.bind fun ids hids => returns_pure ⟨hsubnet, hvpc, hids⟩

/-! ## Records -/

/-- What holds of a record that was asked for. -/
structure Collected (settings : Settings) (name : String) (r : InstanceRecord) : Prop where
  name : r.name = name
  environment : r.environment = settings.environment
  image : Given r.image
  instanceClass : Given r.instanceClass
  subnet : Given r.network.subnetId
  vpc : Given r.network.vpcId
  groups : ∀ id ∈ r.network.securityGroupIds, IsGroupId id
  rootSize : 0 < r.rootVolume.sizeGib
  sizes : ∀ v ∈ r.extraVolumes, 0 < v.sizeGib
  metadataPolicy : r.metadataPolicy = {}
  tagKeys : ∀ k ∈ r.tags.keys, Given k ∧ k ∉ standardTagKeys

theorem returns_collectRecord (settings : Settings) (client : Cloud.Client) (name : String) :
    (collectRecord settings client name).Returns Images fun d =>
      ∃ r : InstanceRecord, d = r.draft ∧ Collected settings name r := by
  unfold collectRecord
  refine (Action.keeps_displayAll _).then_returns fun _ => (Action.keeps_say _).then_returns fun _ =>
    (Action.keeps_drawAll _).bind_returns fun _ => ?_
  refine (returns_value _).bind fun instanceClass hclass => ?_
  refine (returns_network client).bind fun connected hnetwork => ?_
  refine (returns_image settings client).bind fun chosen hchosen => ?_
  obtain ⟨image, rfl, himage⟩ := hchosen
  refine (keeps_identity client).bind_returns fun _ => (keeps_optional _).bind_returns fun _ =>
    (keeps_confirm _ _).bind_returns fun _ => (Action.keeps_displayAll _).then_returns fun _ => ?_
  refine returns_rootVolume.bind fun root hroot => ?_
  refine returns_extraVolumes.bind fun extras hextras => ?_
  refine (keeps_optional _).bind_returns fun _ => keeps_protection.bind_returns fun _ => ?_
  refine returns_tags.bind fun custom hcustom => returns_pure ⟨_, rfl, ?_⟩
  exact {
    name := rfl
    environment := rfl
    image := himage
    instanceClass := hclass
    subnet := hnetwork.1
    vpc := hnetwork.2.1
    groups := hnetwork.2.2
    rootSize := hroot
    sizes := hextras
    metadataPolicy := rfl
    tagKeys := hcustom }

variable {settings : Settings} {name : String} {r : InstanceRecord}

/-- Of the rules of the schema, only those on the name and on devices are left open. -/
theorem Collected.inSchema_iff (h : Collected settings name r) (henvironment : Given settings.environment) :
    r.InSchema ↔ Usable name ∧ (∀ v ∈ r.extraVolumes, "/dev/".toList <+: v.devicePath.toList) ∧
      (r.extraVolumes.map ExtraVolume.devicePath).Nodup := by
  constructor
  · intro hschema
    exact ⟨h.name ▸ hschema.name, hschema.prefixes, hschema.devices⟩
  · rintro ⟨hname, hprefixes, hdevices⟩
    exact {
      name := h.name.symm ▸ hname
      image := h.image
      instanceClass := h.instanceClass
      subnet := h.subnet
      vpc := h.vpc
      groups := h.groups
      rootSize := h.rootSize
      sizes := h.sizes
      prefixes := hprefixes
      devices := hdevices
      hopLimit := by
        rw [h.metadataPolicy]
        decide
      tagKeys := h.tagKeys
      environment := h.environment.symm ▸ henvironment }

/-- The rules on devices that stand among those on further volumes. -/
theorem rule_of_volumeRules {before : List String} {vs : List ExtraVolume} {rule : Record.Rule}
    (h : rule ∈ Record.volumeRules before vs) : ∃ v ∈ vs, rule = .volumeSize v.devicePath v.sizeGib ∨
      rule.problem = .devicePrefix v.devicePath ∨ rule.problem = .repeatedDevice v.devicePath := by
  induction vs generalizing before with
  | nil => cases h
  | cons v vs ih =>
    simp only [Record.volumeRules, List.cons_append, List.nil_append, List.mem_cons] at h
    rcases h with rfl | rfl | rfl | h
    · exact ⟨v, List.mem_cons_self .., .inl rfl⟩
    · exact ⟨v, List.mem_cons_self .., .inr (.inl rfl)⟩
    · exact ⟨v, List.mem_cons_self .., .inr (.inr rfl)⟩
    · obtain ⟨w, hw, hrule⟩ := ih h
      exact ⟨w, List.mem_cons_of_mem v hw, hrule⟩

/-- The problems of a record that was asked for are those of its name and of its devices. -/
theorem Collected.problem_cases (h : Collected settings name r) (hname : Given name)
    (henvironment : Given settings.environment) {rule : Record.Rule} (hrule : rule ∈ r.broken) :
    rule.problem = .emptyKey name ∨ ∃ v ∈ r.extraVolumes,
      rule.problem = .devicePrefix v.devicePath ∨ rule.problem = .repeatedDevice v.devicePath := by
  obtain ⟨hmem, hbroken⟩ := List.mem_filter.1 hrule
  have hfails : ¬ rule.Holds := by simpa using hbroken
  simp only [InstanceRecord.rules, List.mem_append, List.mem_cons, List.mem_map, List.not_mem_nil,
    or_false] at hmem
  -- The rules stand in the order of the fields; all but the first and those on devices hold.
  rcases hmem with (((((((rfl | rfl | rfl | rfl | rfl) | ⟨id, hid, rfl⟩) | rfl) | hvolume) | rfl) |
    ⟨k, hk, rfl⟩) | rfl)
  · left
    rw [h.name, Record.Rule.problem, Record.given_iff.1 hname]
    rfl
  · exact absurd h.image hfails
  · exact absurd h.instanceClass hfails
  · exact absurd h.subnet hfails
  · exact absurd h.vpc hfails
  · exact absurd (h.groups id hid) hfails
  · exact absurd h.rootSize hfails
  · obtain ⟨v, hv, rfl | hproblem⟩ := rule_of_volumeRules hvolume
    · exact absurd (h.sizes v hv) hfails
    · exact .inr ⟨v, hv, hproblem⟩
  · rw [h.metadataPolicy] at hfails
    exact absurd (by decide) hfails
  · exact absurd (h.tagKeys k hk) hfails
  · exact absurd (h.environment.symm ▸ henvironment) hfails

end Prompt

/-! ## Settings -/

namespace Settings

theorem environment_build {home workDirectory : Files.Path} {values : List (String × Yaml.Value)}
    {s : Settings} (h : build home workDirectory values = .ok s) : Given s.environment :=
  (value_of_build h .environment).fits (fits_standard workDirectory .environment)

/-- The environment of loaded settings is not blank. -/
theorem returns_load (loader : Loader) (directory : Files.Path) (asked : Option String)
    (env : Environment) (overrides : Layer) :
    (load loader directory asked env overrides).Returns (fun _ => True) fun s => Given s.environment := by
  intro s _
  refine (meets_load loader directory asked env overrides s).imp ?_ fun _ _ _ => trivial
  rintro r _ ⟨entries, -, -, workDirectory, hbuild⟩
  exact ⟨environment_build hbuild, trivial⟩

end Settings

/-! ## Prompting and validation -/

namespace Prompt
variable {loader : Loader} {directory : Files.Path} {asked : Option String}
  {env : Environment} {overrides : Layer} {settings : Settings} {name : String} {client : Cloud.Client} {d : Draft} {s s' s'' : Session}

/-- A record that is asked for, with loaded settings and a name that is asked for, passes validation
where its name can be told apart and its further volumes have devices of their own, with paths of their
form. No other problem is found. -/
theorem collected_valid_iff
    (hsettings : ((Settings.load loader directory asked env overrides).outcome s).1 = .ok settings)
    (hname : (Prompt.name.outcome s').1 = .ok name) (himages : s''.provider.NamesImages)
    (hrecord : ((collectRecord settings client name).outcome s'').1 = .ok d) :
    ∃ r : InstanceRecord, d = r.draft ∧ r.name = name ∧
      (d.validate = .ok () ↔
        Usable name ∧ (∀ v ∈ r.extraVolumes, "/dev/".toList <+: v.devicePath.toList) ∧
          (r.extraVolumes.map ExtraVolume.devicePath).Nodup) ∧
      ∃ problems, d.problems = .ok problems ∧ ∀ p ∈ problems, p = .emptyKey name ∨
        ∃ v ∈ r.extraVolumes, p = .devicePrefix v.devicePath ∨ p = .repeatedDevice v.devicePath := by
  have henvironment : Given settings.environment :=
    (Settings.returns_load loader directory asked env overrides).of_result trivial hsettings
  -- Settings and names come from sessions of which nothing is known.
  have hasked : Prompt.name.Returns (fun _ => True) Given := returns_name
  have hgiven : Given name := hasked.of_result trivial hname
  obtain ⟨r, rfl, hr⟩ :=
    (returns_collectRecord settings client name).of_result himages hrecord
  refine ⟨r, rfl, hr.name, ?_, _, r.problems_draft, ?_⟩
  · rw [r.validate_eq_ok_iff, hr.inSchema_iff henvironment]
  · rw [InstanceRecord.flatMap_found, ← InstanceRecord.broken]
    intro p hp
    obtain ⟨rule, hrule, rfl⟩ := List.mem_map.1 hp
    exact hr.problem_cases hgiven henvironment hrule

/-! ## A record with one device twice -/

theorem exists_ok_of_any {ε α : Type} {x : Except ε α} {p : α → Bool} (h : x.toOption.any p = true) :
    ∃ a, x = .ok a ∧ p a = true := by
  cases x with
  | error e => cases h
  | ok a => exact ⟨a, rfl, h⟩

def exampleImage : Value :=
  .object [("ImageId", .text "ami-1")]

def exampleSettings : Settings where
  workDirectory := ⟨1, ["srv"]⟩

def exampleClient : Cloud.Client where
  region := exampleSettings.region
  profile := none
  policy := ⟨1, .int 2⟩

/-- The operator types the given texts, one after another. -/
def exampleSession (texts : List String) : Session where
  files := .empty
  directory := exampleSettings.workDirectory
  home := ⟨1, ["root"]⟩
  moment := ⟨2024, 1, 1, 12, 0, 0⟩
  processId := "1"
  provider := ⟨[(("DescribeImages", false), [{ pages := [.object [("Images", .list [exampleImage])]] }])]⟩
  answers := texts.map fun t => { reply := .given t }

theorem namesImages_example (texts : List String) : (exampleSession texts).provider.NamesImages := by
  rintro a ⟨attempts, hoffered, ha⟩ page hpage image himage id hid
  obtain ⟨-, rfl⟩ := Prod.mk.inj (List.mem_singleton.1 hoffered)
  obtain rfl := List.mem_singleton.1 ha
  obtain rfl := List.mem_singleton.1 hpage
  obtain rfl : image = exampleImage := List.mem_singleton.1 himage
  exact ⟨"ami-1", (Option.some.inj hid).symm, 'a', by decide, by decide⟩

/-- The device that is offered for the first further volume is given for the second one as well. -/
def exampleAnswers : List String :=
  ["t3.micro", "vpc-1", "subnet-1", "sg-0a", "1"] ++ List.replicate 7 "" ++
    ["y", "", "", "", "", "", "y", "/dev/sdf"] ++ List.replicate 9 ""

/-- A record with one device twice can be asked for, and this is its only problem. -/
theorem collected_with_repeated_device :
    ((Settings.load Yaml.load exampleSettings.workDirectory none [] []).outcome (exampleSession [])).1 =
        .ok exampleSettings ∧
      (Prompt.name.outcome (exampleSession ["web"])).1 = .ok "web" ∧
      (exampleSession exampleAnswers).provider.NamesImages ∧
      ∃ d, ((collectRecord exampleSettings exampleClient "web").outcome
          (exampleSession exampleAnswers)).1 = .ok d ∧
        d.problems = .ok [.repeatedDevice "/dev/sdf"] ∧
        ∃ r : InstanceRecord, d = r.draft ∧ r.name = "web" ∧
          (d.validate = .ok () ↔
            Usable "web" ∧ (∀ v ∈ r.extraVolumes, "/dev/".toList <+: v.devicePath.toList) ∧
              (r.extraVolumes.map ExtraVolume.devicePath).Nodup) ∧
          ∃ problems, d.problems = .ok problems ∧ ∀ p ∈ problems, p = .emptyKey "web" ∨
            ∃ v ∈ r.extraVolumes, p = .devicePrefix v.devicePath ∨ p = .repeatedDevice v.devicePath := by
  have hsettings : ((Settings.load Yaml.load exampleSettings.workDirectory none [] []).outcome
      (exampleSession [])).1 = .ok exampleSettings := by decide +kernel
  have hname : (Prompt.name.outcome (exampleSession ["web"])).1 = .ok "web" := by decide +kernel
  have hrecord : (((collectRecord exampleSettings exampleClient "web").outcome
      (exampleSession exampleAnswers)).1.toOption.any fun d =>
        d.problems = .ok [.repeatedDevice "/dev/sdf"]) = true := by decide +kernel
  obtain ⟨d, hd, hproblems⟩ := exists_ok_of_any hrecord
  exact ⟨hsettings, hname, namesImages_example _, d, hd, of_decide_eq_true hproblems,
    collected_valid_iff hsettings hname (namesImages_example _) hd⟩

end Prompt
end InstanceInventory
