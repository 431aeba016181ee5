import InstanceInventory.Fault
import InstanceInventory.Settings.Basic
import InstanceInventory.Yaml.Value

/-! # Checked settings

* `Misuse`: why a value cannot be the value of a setting.
* `Settings.put`: settings with the checked value of one of them.
* `Settings.build`: the settings that named values make.
-/

namespace InstanceInventory
set_option autoImplicit false
open Yaml (Scalar)

/-! ## Misuses -/

/-- Why a value cannot be the value of a setting. -/
inductive Misuse where
  | notText (s : Setting)
  | notFlag (s : Setting)
  | notNumber (s : Setting)
  | notInteger (s : Setting)
  | tooSmall (s : Setting) (least : Nat)
  | noPresets
  | presetNotMapping
  | presetWithout (field : String)
  | hintsNotList
  deriving DecidableEq, Repr

def Misuse.message : Misuse → String
  | .notText s => "Setting '" ++ s.name ++ "' must be a non-empty string"
  | .notFlag s => "Setting '" ++ s.name ++ "' must be true or false"
  | .notNumber s => "Setting '" ++ s.name ++ "' must be a number"
  | .notInteger s => "Setting '" ++ s.name ++ "' must be an integer"
  | .tooSmall s least => "Setting '" ++ s.name ++ "' must be at least " ++ countText least
  | .noPresets => "Setting 'image_presets' must be a non-empty list"
  | .presetNotMapping => "Each image preset must be a mapping with label, pattern and owner"
  | .presetWithout field => "Image preset is missing '" ++ field ++ "'"
  | .hintsNotList => "Setting 'instance_type_hints' must be a list"

def Misuse.fault (m : Misuse) : Fault :=
  .plain .settings m.message

namespace Settings

/-! ## Checks -/

/-- The text of a value. There is none where an integer in it has too many digits. -/
def textOf (v : Yaml.Value) : Except Fault String :=
  if v.writesLong then .error .tooManyDigits else .ok v.asText

/-- A text that is not blank; a number counts as its text. -/
def checkText (s : Setting) (v : Yaml.Value) : Except Fault String :=
  match v.form with
  | .scalar (.text _) | .scalar (.number _) => do
    let t ← textOf v
    if Text.isBlankText t then throw (Misuse.notText s).fault else return t
  | _ => .error (Misuse.notText s).fault

/-- A text that is not blank, or nothing. -/
def checkText? (s : Setting) (v : Yaml.Value) : Except Fault (Option String) :=
  if v.isNull then .ok none else (checkText s v).map some

def checkFlag (s : Setting) (v : Yaml.Value) : Except Misuse Bool :=
  match v.form with
  | .scalar (.bool b) => .ok b
  | _ => .error (.notFlag s)

/-- A number that is not below the least one. The double that is no number is below none. -/
def checkNumber (s : Setting) (least : Nat) (v : Yaml.Value) : Except Misuse Number :=
  match v.form with
  | .scalar (.number n) => if n.lessThan least then .error (.tooSmall s least) else .ok n
  | _ => .error (.notNumber s)

/-- A number that is not below the least one, as a double. -/
def checkDouble (s : Setting) (least : Nat) (v : Yaml.Value) : Except Fault Double := do
  let n ← (checkNumber s least v).mapError Misuse.fault
  match n.toDouble? with
  | some d => return d
  | none => throw .tooLarge

/-- An integer that is not below the least one. -/
def checkInteger (s : Setting) (least : Nat) (v : Yaml.Value) : Except Misuse Int :=
  match v.form with
  | .scalar (.number (.real _)) => .error (.notInteger s)
  | .scalar (.number (.int n)) => if n < least then .error (.tooSmall s least) else .ok n
  | _ => .error (.notNumber s)

/-- The text of a field of a preset, or another where the field may be left out. -/
def presetField (entries : List (Scalar × Yaml.Value)) (field : String) (other : Option String) :
    Except Fault String :=
  match Yaml.Value.getText? entries field, other with
  | some v, _ => textOf v
  | none, some text => .ok text
  | none, none => .error (Misuse.presetWithout field).fault

/-- A preset; its owner may be left out. -/
def checkPreset (v : Yaml.Value) : Except Fault ImagePreset :=
  match v.form with
  | .mapping entries => do
    let label ← presetField entries "label" none
    let pattern ← presetField entries "pattern" none
    let owner ← presetField entries "owner" (some "amazon")
    return { label, pattern, owner }
  | _ => .error Misuse.presetNotMapping.fault

/-- At least one preset. -/
def checkPresets (v : Yaml.Value) : Except Fault (List ImagePreset) :=
  match v.form with
  | .list (v :: vs) => (v :: vs).mapM checkPreset
  | _ => .error Misuse.noPresets.fault

/-- Hints of any kind, as texts. -/
def checkHints (v : Yaml.Value) : Except Fault (List String) :=
  match v.form with
  | .list vs => vs.mapM textOf
  | _ => .error Misuse.hintsNotList.fault

/-- A directory; a tilde stands for the home directory. -/
def checkDirectory (home : Files.Path) (v : Yaml.Value) : Except Fault (Option Files.Path) :=
  if v.isNull then .ok none
  else do
    match (Files.Path.ofText (← textOf v)).expandHome home with
    | some p => return some p
    | none => throw .noHome

/-! ## Building -/

def put (home : Files.Path) (s : Settings) (name : Setting) (v : Yaml.Value) :
    Except Fault Settings :=
  let text := checkText name v
  let flag := (checkFlag name v).mapError Misuse.fault
  match name with
  | .document => text.map fun document => { s with document }
  | .region => text.map fun region => { s with region }
  | .environment => text.map fun environment => { s with environment }
  | .providerVersion => text.map fun providerVersion => { s with providerVersion }
  | .terraformBinary => text.map fun terraformBinary => { s with terraformBinary }
  | .profile => (checkText? name v).map fun profile => { s with profile }
  | .backupDirectory => (checkDirectory home v).map fun d => { s with backupDirectory := d }
  | .preventDestroy => flag.map fun preventDestroy => { s with preventDestroy }
  | .debug => flag.map fun debug => { s with debug }
  | .lockTimeout => (checkDouble name 0 v).map fun lockTimeout => { s with lockTimeout }
  | .maxAttempts =>
    ((checkInteger name 1 v).mapError Misuse.fault).map fun maxAttempts => { s with maxAttempts }
  | .retryBaseDelay => (checkDouble name 0 v).map fun retryBaseDelay => { s with retryBaseDelay }
  | .imagePresets => (checkPresets v).map fun imagePresets => { s with imagePresets }
  | .instanceTypeHints => (checkHints v).map fun hints => { s with instanceTypeHints := hints }

/-- Settings with the checked values of pairs, in order; other names are passed over. -/
def putAll (home : Files.Path) (s : Settings) : List (String × Yaml.Value) → Except Fault Settings
  | [] => .ok s
  | (name, v) :: rest =>
    match Setting.ofName? name with
    | some setting => do
      let s ← s.put home setting v
      s.putAll home rest
    | none => s.putAll home rest

/-- The settings that named values make for a work directory. -/
def build (home workDirectory : Files.Path) (values : List (String × Yaml.Value)) :
    Except Fault Settings :=
  putAll home { workDirectory } values

end Settings
end InstanceInventory
