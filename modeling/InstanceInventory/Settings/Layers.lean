import InstanceInventory.Action
import InstanceInventory.Settings.Check
import InstanceInventory.Text.Lowercase

/-! # Layers of settings

* `Settings.load`: the settings for a directory. Later layers win: what holds where nothing is said,
  the settings file, the environment, and what is given directly.
* `Settings.fileLayer`, `Settings.environmentLayer`: what a file or the environment sets.
-/

namespace InstanceInventory
set_option autoImplicit false
open Yaml (Scalar)

abbrev Layer := List (String × Yaml.Value)

/-- What makes a value of a text, or tells why there is none. -/
abbrev Loader := String → Except Yaml.Fault Yaml.Value

/-- Variables of the environment by their names. -/
abbrev Environment := List (String × String)

namespace Settings

/-! ## The settings file -/

def standardFile : String := ".ec2tf.yml"

/-- What begins the names of variables that set something. -/
def variablePrefix : String := "EC2TF_"

def fileVariable : String := "EC2TF_SETTINGS_FILE"

/-- A text that is there and not empty. -/
def given? (s : Option String) : Option String :=
  s.filter fun t => !t.isEmpty

/-- The settings file: the one that is asked for, which must be there, or else the one in the work
directory, if there is one. -/
def file? (directory : Files.Path) (asked : Option String) (env : Environment) :
    Action (Option Files.Path) := do
  match (given? asked).or (given? (Pairs.get? env fileVariable)) with
  | some text =>
    match (Files.Path.ofText text).expandHome (← get).home with
    | none => throw .noHome
    | some p =>
      if ← Action.read fun s => s.files.isFile (s.locate p) then return some p
      else Action.fail .settings ("Settings file not found: " ++ p.text)
  | none =>
    let p := directory.child standardFile
    return if ← Action.read fun s => s.files.isFile (s.locate p) then some p else none

/-- The name of a setting as a key of the settings file; a dash stands for an underscore. -/
def settingName (key : Scalar) : String :=
  String.ofList (key.asText.toList.map fun c => if c = '-' then '_' else c)

/-- What the mapping of a settings file sets. -/
def fileLayer (entries : List (Scalar × Yaml.Value)) : Layer :=
  Pairs.ofList (entries.map fun e => (settingName e.1, e.2))

/-- What a settings file sets. A file that says nothing sets nothing. -/
def readFile (loader : Loader) (p : Files.Path) : Action Layer := do
  let text ← Action.read fun s => s.files.readText (s.locate p)
  match loader text with
  | .ok v =>
    match v.form with
    | .mapping entries => return fileLayer entries
    | _ =>
      if v.isTruthy then
        Action.fail .settings ("Settings file " ++ p.text ++ " must contain a mapping")
      else return []
  | .error .malformed => Action.fail .settings ("Invalid YAML in " ++ p.text)
  | .error (.noSuchCharacter n) => throw (.noSuchCharacter n)
  | .error (.scalar f) => throw (.scalar f)

/-! ## The environment -/

/-- What a variable is for. -/
inductive Purpose where
  /-- It has nothing to do with settings, or they are not set this way. -/
  | other
  | unknown
  | setting (name : String)
  deriving DecidableEq, Repr

def purpose (key : String) : Purpose :=
  if !variablePrefix.toList.isPrefixOf key.toList || key == fileVariable then .other
  else
    let name := Text.lower (String.ofList (key.toList.drop variablePrefix.length))
    match Setting.ofName? name with
    | some .imagePresets | some .instanceTypeHints => .other
    | some _ => .setting name
    | none => .unknown

/-- The value of a variable: what it says, or its own text where that cannot be read. -/
def variableValue (loader : Loader) (text : String) : Except Fault Yaml.Value :=
  match loader text with
  | .ok v => .ok v
  | .error .malformed => .ok (.ofText text)
  | .error (.noSuchCharacter n) => .error (.noSuchCharacter n)
  | .error (.scalar f) => .error (.scalar f)

/-- What the environment sets, on top of a layer. Unknown variables are passed over with a
warning. -/
def environmentLayer (loader : Loader) (layer : Layer) : Environment → Action Layer
  | [] => return layer
  | (key, text) :: env => do
    match purpose key with
    | .other => environmentLayer loader layer env
    | .unknown =>
      Action.warn ("Ignoring unknown environment variable " ++ key)
      environmentLayer loader layer env
    | .setting name => do
      let v ← Action.ofExcept (variableValue loader text)
      environmentLayer loader (Pairs.set layer name v) env

/-! ## All layers -/

/-- The values that are given directly; a null gives nothing. -/
def givenLayer (overrides : Layer) : Layer :=
  overrides.filter fun e => !e.2.isNull

/-- The names in a layer that set nothing, sorted. -/
def unknownNames (layer : Layer) : List String :=
  ((layer.map Prod.fst).filter fun n => (Setting.ofName? n).isNone).mergeSort
    fun a b => decide (a ≤ b)

/-- The settings for a directory. A loader makes values of the file and of the variables. -/
def load (loader : Loader) (directory : Files.Path) (asked : Option String) (env : Environment)
    (overrides : Layer) : Action Settings := do
  let file ← match ← file? directory asked env with
    | some p => readFile loader p
    | none => pure []
  let set ← environmentLayer loader [] env
  let layer := Pairs.setAll (Pairs.setAll file set) (givenLayer overrides)
  if !(unknownNames layer).isEmpty then
    Action.fail .settings ("Unknown settings: " ++ ", ".intercalate (unknownNames layer))
  let s ← get
  match directory.expandHome s.home with
  | none => throw .noHome
  | some d =>
    if d.holdsNull then throw (.file .nullCharacter)
    else Action.ofExcept (build s.home (s.directory.resolve d) layer)

end Settings
end InstanceInventory
