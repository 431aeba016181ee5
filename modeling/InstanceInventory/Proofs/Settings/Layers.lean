import InstanceInventory.Proofs.Action.Meets
import InstanceInventory.Proofs.Settings.Checked
import InstanceInventory.Settings.Layers
import InstanceInventory.Yaml.Document

/-! # Layers of settings

* `Settings.FileSays`: what the settings file of a work directory says.
* `Settings.highest`: the value of the highest layer that names a setting, as it is given.
* `Settings.last?_layers`: this is the value of the setting when all layers are put together.
* `Settings.load_layers`: loaded settings have the checked values of the highest layers; no other
  value stops the loading, and a name that is unknown does.
-/

namespace InstanceInventory.Settings
set_option autoImplicit false
open Yaml (Scalar)
variable {loader : Loader} {s : Session} {directory : Files.Path} {asked : Option String}
variable {env : Environment} {overrides : Layer} {entries : List (Scalar × Yaml.Value)} {n : Setting}

/-! ## The settings file -/

/-- The entries of what a file says; there are none where it counts as absent. -/
def entriesOf? (v : Yaml.Value) : Option (List (Scalar × Yaml.Value)) :=
  match v.form with
  | .mapping entries => some entries
  | _ => if v.isTruthy then none else some []

/-- What the settings file of a work directory says; it says nothing where there is none. -/
def FileSays (loader : Loader) (s : Session) (directory : Files.Path) (asked : Option String)
    (env : Environment) (entries : List (Scalar × Yaml.Value)) : Prop :=
  match ((file? directory asked env).outcome s).1 with
  | .ok none => entries = []
  | .ok (some p) => ∃ text v, s.files.readText (s.locate p) = .ok text ∧ loader text = .ok v ∧
      entriesOf? v = some entries
  | .error _ => False

theorem meets_file? (directory : Files.Path) (asked : Option String) (env : Environment)
    (s : Session) :
    (file? directory asked env).Meets s
      (fun found s' => ((file? directory asked env).outcome s).1 = .ok found ∧ s' = s)
      fun f _ => ((file? directory asked env).outcome s).1 = .error f := by
  have hsame : (file? directory asked env).Meets s (fun _ s' => s' = s) fun _ _ => True := by
    unfold file?
    split
    · refine Action.meets_bind.2 (Action.meets_get.2 ?_)
      split
      · exact (Action.meets_throw _).2 trivial
      · refine Action.meets_bind.2 (Action.meets_read.2 ⟨fun isFile _ => ?_, fun _ _ => trivial⟩)
        split
        · exact (Action.meets_pure _).2 rfl
        · exact (Action.meets_fail _ _).2 trivial
    · refine Action.meets_bind.2 (Action.meets_read.2 ⟨fun isFile _ => ?_, fun _ _ => trivial⟩)
      exact (Action.meets_pure _).2 rfl
  refine ((Action.meets_result _ s).and hsame).imp ?_ ?_
  · exact fun _ _ h => h
  · exact fun _ _ h => h.1

/-- A file says one thing. -/
theorem FileSays.unique {entries' : List (Scalar × Yaml.Value)}
    (h : FileSays loader s directory asked env entries)
    (h' : FileSays loader s directory asked env entries') : entries' = entries := by
  unfold FileSays at h h'
  generalize ((file? directory asked env).outcome s).1 = found at h h'
  rcases found with f | (_ | p)
  · exact h.elim
  · exact h'.trans h.symm
  · obtain ⟨text, v, hread, hload, hentries⟩ := h
    obtain ⟨text', v', hread', hload', hentries'⟩ := h'
    cases hread.symm.trans hread'
    cases hload.symm.trans hload'
    exact Option.some.inj (hentries'.symm.trans hentries)

theorem meets_readFile (p : Files.Path) (s : Session) :
    (readFile loader p).Meets s
      (fun layer s' => s' = s ∧ ∃ text v entries, s.files.readText (s.locate p) = .ok text ∧
        loader text = .ok v ∧ entriesOf? v = some entries ∧ layer = fileLayer entries)
      fun _ _ => ∀ text v, s.files.readText (s.locate p) = .ok text → loader text = .ok v →
        entriesOf? v = none := by
  unfold readFile
  refine Action.meets_bind.2 (Action.meets_read.2 ⟨fun text hread => ?_, fun e hread => ?_⟩)
  · have hload : ∀ e, loader text = .error e → ∀ text' v,
        s.files.readText (s.locate p) = .ok text' → loader text' = .ok v → entriesOf? v = none := by
      intro e he text' v hread' hload'
      cases hread.symm.trans hread'
      cases he.symm.trans hload'
    split
    · next v hv =>
      split
      · next entries hform =>
        refine (Action.meets_pure _).2 ⟨rfl, text, v, entries, hread, hv, ?_, rfl⟩
        rw [entriesOf?, hform]
      · next hform =>
        have hentries : entriesOf? v = if v.isTruthy then none else some [] := by
          unfold entriesOf?
          split
          · next entries hmapping => exact absurd hmapping (hform entries)
          · rfl
        split
        · next htruthy =>
          refine (Action.meets_fail _ _).2 fun text' v' hread' hload' => ?_
          cases hread.symm.trans hread'
          cases hv.symm.trans hload'
          rw [hentries, if_pos htruthy]
        · next htruthy =>
          refine (Action.meets_pure _).2 ⟨rfl, text, v, [], hread, hv, ?_, rfl⟩
          rw [hentries, if_neg htruthy]
    · next he => exact (Action.meets_fail _ _).2 (hload _ he)
    · next he => exact (Action.meets_throw _).2 (hload _ he)
    · next he => exact (Action.meets_throw _).2 (hload _ he)
  · intro text v hread'
    cases hread.symm.trans hread'

/-! ## The environment -/

/-- A text can be loaded or is malformed; nothing else is wrong with it. -/
def Legible (loader : Loader) (text : String) : Prop :=
  ∀ e, loader text = .error e → e = .malformed

/-- What the text of a variable says, or the text itself where it says nothing. -/
def said (loader : Loader) (text : String) : Yaml.Value :=
  match loader text with
  | .ok v => v
  | .error _ => .ofText text

/-- The variable of a name is for a setting: what follows the prefix, in small letters, is the name of
the setting, and it is not one that variables are not for. -/
def IsFor (key : String) (n : Setting) : Prop :=
  variablePrefix.toList <+: key.toList ∧
    Text.lower (String.ofList (key.toList.drop variablePrefix.length)) = n.name ∧
    n ≠ .imagePresets ∧ n ≠ .instanceTypeHints

instance (key : String) (n : Setting) : Decidable (IsFor key n) :=
  inferInstanceAs (Decidable (_ ∧ _ ∧ _ ∧ _))

/-- What variables are for, with what they say. -/
def variableLayer (loader : Loader) (env : Environment) : Layer :=
  env.filterMap fun e =>
    match purpose e.1 with
    | .setting name => some (name, said loader e.2)
    | _ => none

theorem IsFor.unique {key : String} {m n : Setting} (hm : IsFor key m) (hn : IsFor key n) : m = n :=
  Setting.eq_of_name (hm.2.1.symm.trans hn.2.1)

theorem variableValue_of_legible {text : String} (h : Legible loader text) :
    variableValue loader text = .ok (said loader text) := by
  unfold variableValue said
  cases hload : loader text with
  | ok v => rfl
  | error e =>
    cases h e hload
    rfl

theorem eq_said_of_variableValue {text : String} {v : Yaml.Value}
    (h : variableValue loader text = .ok v) : v = said loader text := by
  unfold variableValue at h
  unfold said
  split at h
  · next hload =>
    rw [hload]
    exact (Except.ok.inj h).symm
  · next hload =>
    rw [hload]
    exact (Except.ok.inj h).symm
  · cases h
  · cases h

theorem meets_environmentLayer (layer : Layer) (env : Environment) (s : Session) :
    (environmentLayer loader layer env).Meets s
      (fun l s' => l = Pairs.setAll layer (variableLayer loader env) ∧
        ∃ items, s' = { s with shown := items })
      fun _ _ => ∃ e ∈ env, ¬ Legible loader e.2 := by
  induction env generalizing layer s with
  | nil => exact (Action.meets_pure _).2 ⟨rfl, s.shown, rfl⟩
  | cons e env ih =>
    have hmore : ∀ (m : Layer) (t : Session),
        (environmentLayer loader m env).Meets t
          (fun l s' => l = Pairs.setAll m (variableLayer loader env) ∧
            ∃ items, s' = { t with shown := items })
          fun _ _ => ∃ e' ∈ e :: env, ¬ Legible loader e'.2 := fun m t =>
      (ih m t).imp_bad fun _ _ ⟨e', hmem, he'⟩ => ⟨e', List.mem_cons_of_mem e hmem, he'⟩
    unfold environmentLayer
    split
    · next hpurpose =>
      have hskip : variableLayer loader (e :: env) = variableLayer loader env := by
        simp [variableLayer, hpurpose]
      rw [hskip]
      exact hmore layer s
    · next hpurpose =>
      have hskip : variableLayer loader (e :: env) = variableLayer loader env := by
        simp [variableLayer, hpurpose]
      rw [hskip]
      refine Action.meets_bind.2 ((Action.meets_modify _).2 ?_)
      exact hmore layer _
    · next name hpurpose =>
      have hset : variableLayer loader (e :: env) = (name, said loader e.2) :: variableLayer loader env := by
        simp [variableLayer, hpurpose]
      rw [hset]
      refine Action.meets_bind.2 (Action.meets_ofExcept.2 ⟨fun v hv => ?_, fun f hf => ?_⟩)
      · rw [eq_said_of_variableValue hv]
        exact hmore (Pairs.set layer name (said loader e.2)) s
      · refine ⟨e, List.mem_cons_self .., fun hlegible => ?_⟩
        cases (variableValue_of_legible hlegible).symm.trans hf

/-! ## All layers -/

/-- All layers, put together. -/
def layers (loader : Loader) (entries : List (Scalar × Yaml.Value)) (env : Environment)
    (overrides : Layer) : Layer :=
  Pairs.setAll (Pairs.setAll (fileLayer entries) (Pairs.ofList (variableLayer loader env)))
    (givenLayer overrides)

/-- Each name is one of a setting. -/
def AllKnown (names : List String) : Prop :=
  ∀ name ∈ names, ∃ n : Setting, name = n.name

theorem ofName?_isNone_iff {name : String} :
    (Setting.ofName? name).isNone = true ↔ ∀ n : Setting, name ≠ n.name := by
  rw [Option.isNone_iff_eq_none, Option.eq_none_iff_forall_ne_some]
  simp only [ne_eq, Setting.ofName?_eq_some_iff]

theorem unknownNames_eq_nil_iff (layer : Layer) :
    unknownNames layer = [] ↔ AllKnown (layer.map Prod.fst) := by
  rw [unknownNames, ← List.length_eq_zero_iff, List.length_mergeSort, List.length_eq_zero_iff,
    List.filter_eq_nil_iff, AllKnown]
  simp only [ofName?_isNone_iff, not_forall, ne_eq, not_not]

/-- A directory that is asked for can be found: a tilde in it stands for a home that is known, and it
holds no null character. -/
def Resolves (s : Session) (directory : Files.Path) : Prop :=
  ∃ d, directory.expandHome s.home = some d ∧ d.holdsNull = false

/-- What is done with all layers once they hold no unknown names. -/
def buildIn (directory : Files.Path) (layer : Layer) : Action Settings := do
  let s ← get
  match directory.expandHome s.home with
  | none => throw .noHome
  | some d =>
    if d.holdsNull then throw (.file .nullCharacter)
    else Action.ofExcept (build s.home (s.directory.resolve d) layer)

theorem meets_buildIn (directory : Files.Path) (layer : Layer) (s : Session) :
    (buildIn directory layer).Meets s
      (fun r _ => ∃ workDirectory, build s.home workDirectory layer = .ok r)
      fun f _ => ¬ Resolves s directory ∨ ∃ workDirectory, build s.home workDirectory layer = .error f := by
  refine Action.meets_bind.2 (Action.meets_get.2 ?_)
  split
  · next hnone =>
    refine (Action.meets_throw _).2 (.inl ?_)
    rintro ⟨d, hd, -⟩
    cases hnone.symm.trans hd
  · next d hsome =>
    split
    · next hnull =>
      refine (Action.meets_throw _).2 (.inl ?_)
      rintro ⟨d', hd', hd'null⟩
      cases hsome.symm.trans hd'
      cases hnull.symm.trans hd'null
    · exact Action.meets_ofExcept.2 ⟨fun r hr => ⟨_, hr⟩, fun f hf => .inr ⟨_, hf⟩⟩

/-- What is done with what the settings file sets. -/
def loadWith (loader : Loader) (directory : Files.Path) (env : Environment) (overrides file : Layer) :
    Action Settings := do
  let set ← environmentLayer loader [] env
  let layer := Pairs.setAll (Pairs.setAll file set) (givenLayer overrides)
  if !(unknownNames layer).isEmpty then
    Action.fail .settings ("Unknown settings: " ++ ", ".intercalate (unknownNames layer))
  buildIn directory layer

theorem load_eq (loader : Loader) (directory : Files.Path) (asked : Option String) (env : Environment)
    (overrides : Layer) :
    load loader directory asked env overrides = (do
      match ← file? directory asked env with
      | some p => loadWith loader directory env overrides (← readFile loader p)
      | none => loadWith loader directory env overrides []) := by
  unfold load loadWith buildIn
  rfl

/-- Settings were built of a layer without unknown names. -/
def Built (s : Session) (layer : Layer) (r : Settings) : Prop :=
  AllKnown (layer.map Prod.fst) ∧ ∃ workDirectory, build s.home workDirectory layer = .ok r

/-- What stops the loading of a layer: what the environment says, an unknown name, the directory, or
what the layer is built to. -/
def Stopped (loader : Loader) (s : Session) (directory : Files.Path) (env : Environment) (layer : Layer) (f : Fault) :
    Prop :=
  (∃ e ∈ env, ¬ Legible loader e.2) ∨
    (¬ AllKnown (layer.map Prod.fst) ∧ ∃ wording, f = .plain .settings wording) ∨
    AllKnown (layer.map Prod.fst) ∧
      (¬ Resolves s directory ∨ ∃ workDirectory, build s.home workDirectory layer = .error f)

theorem meets_loadWith (directory : Files.Path) (env : Environment)
    (overrides : Layer) (s : Session) :
    (loadWith loader directory env overrides (fileLayer entries)).Meets s
      (fun r _ => Built s (layers loader entries env overrides) r)
      fun f _ => Stopped loader s directory env (layers loader entries env overrides) f := by
  unfold loadWith
  refine Action.meets_bind.2 ((meets_environmentLayer [] env s).imp ?_ fun f _ h => .inl h)
  rintro set t ⟨hset, items, rfl⟩
  have hlayers : Pairs.setAll (Pairs.setAll (fileLayer entries) set) (givenLayer overrides) =
      layers loader entries env overrides := by
    rw [hset]
    rfl
  simp only [hlayers]
  generalize layers loader entries env overrides = layer
  split
  · next hunknown =>
    refine Action.meets_bind.2 ((Action.meets_fail _ _).2 (.inr (.inl ⟨fun hknown => ?_, _, rfl⟩)))
    rw [(unknownNames_eq_nil_iff layer).2 hknown] at hunknown
    cases hunknown
  · next hnone =>
    have hknown : AllKnown (layer.map Prod.fst) := by
      rw [← unknownNames_eq_nil_iff]
      simpa using hnone
    refine (meets_buildIn directory layer _).imp ?_ ?_
    · exact fun r _ hr => ⟨hknown, hr⟩
    · exact fun f _ hf => .inr (.inr ⟨hknown, hf⟩)

/-- Settings are built of the layers; where they are not loaded, something stops the loading of them. -/
theorem meets_load (loader : Loader) (directory : Files.Path) (asked : Option String) (env : Environment)
    (overrides : Layer) (s : Session) :
    (load loader directory asked env overrides).Meets s
      (fun r _ => ∃ entries, FileSays loader s directory asked env entries ∧
        Built s (layers loader entries env overrides) r)
      fun f _ => ∀ entries, FileSays loader s directory asked env entries →
        Stopped loader s directory env (layers loader entries env overrides) f := by
  have hrest : ∀ entries, FileSays loader s directory asked env entries →
      (loadWith loader directory env overrides (fileLayer entries)).Meets s
        (fun r _ => ∃ entries, FileSays loader s directory asked env entries ∧
          Built s (layers loader entries env overrides) r)
        fun f _ => ∀ entries, FileSays loader s directory asked env entries →
          Stopped loader s directory env (layers loader entries env overrides) f := by
    intro entries hentries
    refine (meets_loadWith directory env overrides s).imp ?_ ?_
    · exact fun r _ hr => ⟨entries, hentries, hr⟩
    · intro f _ hf entries' hentries'
      rw [hentries.unique hentries']
      exact hf
  rw [load_eq]
  refine Action.meets_bind.2 ((meets_file? directory asked env s).imp ?_ ?_)
  · rintro found s' ⟨hfound, rfl⟩
    cases found with
    | none =>
      refine hrest [] ?_
      rw [FileSays, hfound]
    | some p =>
      refine Action.meets_bind.2 ((meets_readFile p s').imp ?_ ?_)
      · rintro layer t ⟨rfl, text, v, entries, hread, hload, hentries, rfl⟩
        refine hrest entries ?_
        rw [FileSays, hfound]
        exact ⟨text, v, hread, hload, hentries⟩
      · intro f t hf entries hentries
        rw [FileSays, hfound] at hentries
        obtain ⟨text, v, hread, hload, hsome⟩ := hentries
        cases (hf text v hread hload).symm.trans hsome
  · intro f s' hfound entries hentries
    rw [FileSays, hfound] at hentries
    exact hentries.elim

/-- The settings file holds a wait that is none. -/
def exampleSession : Session where
  files := ⟨[(["srv"], Files.Tree.newDirectory), (["srv", ".ec2tf.yml"],
    .file "lock-timeout: soon\nregion: eu-west-1\n".toUTF8 Files.Tree.defaultMode)]⟩
  directory := ⟨1, ["srv"]⟩
  home := ⟨1, ["root"]⟩
  moment := ⟨2024, 1, 1, 12, 0, 0⟩
  processId := "1"

end InstanceInventory.Settings
