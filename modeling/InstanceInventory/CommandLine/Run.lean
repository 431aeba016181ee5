import InstanceInventory.CommandLine.Menu
import InstanceInventory.CommandLine.Switch
import InstanceInventory.Settings.Layers
import InstanceInventory.Yaml.Document

/-! # The command line

* `GlobalSwitch`, `CommandSwitch`: the switches before and after the name of a command.
* `Command`: the commands.
* `Job.ofWords?`: what a command is to do.
* `run`: what a command line does, and the exit code at the end.
-/

namespace InstanceInventory.CommandLine
set_option autoImplicit false

/-- How a command line ends: the exit code, and what is printed besides what is shown. -/
structure Exit where
  code : Nat
  stdout : String := ""
  deriving DecidableEq, Repr

def programName : String := "ec2-terraform-manager"

def versionText : String := programName ++ ", version 1.0.0\n"

/-- The exit code of a command line that cannot be understood. -/
def usageCode : Nat := 2

/-! ## Switches -/

/-- What can be given before the name of a command. -/
inductive GlobalSwitch where
  | workDirectory | settingsFile | region | profile | debug | version | help
  deriving DecidableEq, Repr

def globalSwitches : List (Switch GlobalSwitch) :=
  [⟨"--workdir", .workDirectory, true⟩, ⟨"-w", .workDirectory, true⟩,
    ⟨"--settings", .settingsFile, true⟩, ⟨"--region", .region, true⟩,
    ⟨"--profile", .profile, true⟩, ⟨"--debug", .debug, false⟩,
    ⟨"--version", .version, false⟩, ⟨"--help", .help, false⟩]

/-- What can be given after the name of a command. -/
inductive CommandSwitch where
  | assumeYes | forget | help
  deriving DecidableEq, Repr

/-! ## Commands -/

/-- The commands. -/
inductive Command where
  | create | importInstance | remove | list | validate | plan | apply | backup | menu
  deriving DecidableEq, Repr

namespace Command

def name : Command → String
  | .create => "create"
  | .importInstance => "import"
  | .remove => "remove"
  | .list => "list"
  | .validate => "validate"
  | .plan => "plan"
  | .apply => "apply"
  | .backup => "backup"
  | .menu => "menu"

def all : List Command :=
  [.create, .importInstance, .remove, .list, .validate, .plan, .apply, .backup, .menu]

def ofName? (name : String) : Option Command :=
  all.find? fun c => c.name == name

def switches (c : Command) : List (Switch CommandSwitch) :=
  let agree : List (Switch CommandSwitch) :=
    [⟨"--yes", .assumeYes, false⟩, ⟨"-y", .assumeYes, false⟩]
  let own := match c with
    | .importInstance | .apply => agree
    | .remove => [⟨"--forget", .forget, false⟩]
    | _ => []
  own ++ [⟨"--help", .help, false⟩]

/-- How many other words may follow the name of a command. -/
def capacity : Command → Nat
  | .importInstance | .remove => 1
  | _ => 0

end Command

/-- What a command is to do; a text that was left out is empty. -/
inductive Job where
  | create
  | importInstance (id : String) (assumeYes : Bool)
  | remove (key : String) (forget : Bool)
  | list
  | validate
  | plan
  | apply (assumeYes : Bool)
  | backup
  | menu
  | help
  deriving DecidableEq, Repr

/-- What a command is to do by the words after its name; `none` if they are too many. -/
def Job.ofWords? (c : Command) (w : Words CommandSwitch) : Option Job :=
  let subject := w.others.headD ""
  if w.has .help then some .help
  else if c.capacity < w.others.length then none
  else some <| match c with
    | .create => .create
    | .importInstance => .importInstance subject (w.has .assumeYes)
    | .remove => .remove subject (w.has .forget)
    | .list => .list
    | .validate => .validate
    | .plan => .plan
    | .apply => .apply (w.has .assumeYes)
    | .backup => .backup
    | .menu => .menu

/-! ## Jobs -/

/-- An operation with a keeper that is made for it, and what follows it. A report ends it with the
exit code of the report, and the wish to stop with that of an error. -/
def operate {α : Type} (s : Settings) (operation : Keeper → Action α) (finish : α → Action Unit) :
    Action Nat := do
  match ← Action.observe (do operation (← Keeper.connect s)) with
  | .ok a => do
    finish a
    return 0
  | .error (.report r) => do
    displayReport r
    return r.exitCode
  | .error .interrupted => do
    Action.warn "Interrupted"
    return 1
  | .error f => throw f

/-- An operation that ends with a table of its steps. -/
def operateWithResults (s : Settings) (operation : Keeper → Action Unit) (title : String) :
    Action Nat :=
  operate s operation fun _ => displayResults title

/-- What comes with a report that ends a command. -/
def refuse (r : Report) : Action Nat := do
  displayReport r
  return r.exitCode

/-- Checks everything; how that went is shown before a report. -/
def runValidate (s : Settings) : Action Nat := do
  match ← Action.observe (Keeper.connect s) with
  | .error (.report r) => refuse r
  | .error f => throw f
  | .ok k =>
    match ← Action.observe k.validate with
    | .error (.report r) => do
      displayResults "Validation Results"
      refuse r
    | .error f => throw f
    | .ok () => do
      displayResults "Validation Results"
      return 0

def runMenu (s : Settings) : Action Nat := do
  Action.draw (menuPanel s)
  match ← Action.observe (Keeper.connect s) with
  | .error (.report r) => refuse r
  | .error f => throw f
  | .ok k => do
    menu k
    return 0

/-- How a command is used, with an example. -/
def explainUse (c : Command) (subject sample : String) : Action Unit := do
  Action.say ("Usage: " ++ programName ++ " " ++ c.name ++ " <" ++ subject ++ ">")
  Action.say ("Example: " ++ programName ++ " " ++ c.name ++ " " ++ sample)

/-- How the removal of an instance is used, and what could be removed. -/
def explainRemoval (s : Settings) : Action Unit := do
  explainUse .remove "resource_name" "web_server_1"
  let store ← Action.ofExcept s.store
  Action.draw (.line ("\nCurrent instances in " ++ store.path.name ++ ":"))
  if ← Action.read store.isPresent then
    Keeper.showKeys (← Document.keysOf (← store.readText)) "None found"
  else Action.draw (.line ("  No " ++ store.path.name ++ " found"))

def Job.run (s : Settings) : Job → Action Nat
  | .create => operateWithResults s Keeper.create "Create Results"
  | .importInstance id assumeYes =>
    if id.isEmpty then do
      explainUse .importInstance "instance-id" "i-0b7fc7c40f824a8b9"
      return usageCode
    else operateWithResults s (fun k => k.importInstance id assumeYes) "Import Results"
  | .remove key forget =>
    if key.isEmpty then do
      explainRemoval s
      return usageCode
    else operateWithResults s (fun k => k.remove key forget) "Remove Results"
  | .list => operate s Keeper.listInstances displayInventory
  | .validate => runValidate s
  | .plan => operate s Keeper.plan pure
  | .apply assumeYes => operate s (fun k => k.apply assumeYes) pure
  | .backup => operateWithResults s Keeper.backupState "Backup Results"
  | .menu => runMenu s
  | .help => return 0

/-! ## The command line -/

def givenSettings (w : Words GlobalSwitch) : Layer :=
  let text := fun (name : Setting) (value : Option String) =>
    (value.map fun v => (name.name, Yaml.Value.ofText v)).toList
  text .region (w.value? .region) ++ text .profile (w.value? .profile) ++
    if w.has .debug then [(Setting.debug.name, .ofScalar (.bool true))] else []

/-- What stands where a path that a switch gives leads, as it is written. -/
def givenNode? (text : String) : Action (Option Files.Node) := do
  let s ← get
  let p := Files.Path.ofText text
  if p.holdsNull then throw (.file .nullCharacter)
  match s.files.at? (s.locate p) with
  | some (.file bytes mode) =>
    return if Files.Path.meansDirectory text then none else some (.file bytes mode)
  | other => return other

/-- Whether the paths that switches give can be meant: the work directory may not be a file, and the
settings file not a directory. -/
def arePathsSound (w : Words GlobalSwitch) : Action Bool := do
  let directory ← givenNode? ((w.value? .workDirectory).getD "")
  let file ← givenNode? ((w.value? .settingsFile).getD "")
  return !(directory matches some (.file ..)) &&
    !((w.value? .settingsFile).any (!·.isEmpty) && file matches some (.directory _))

/-- Loads the settings and does what a command is to do. Without a command there is the menu. -/
def runCommand (env : Environment) (w : Words GlobalSwitch) (command : Option Command)
    (arguments : List String) : Action Nat := do
  let directory := Files.Path.ofText ((w.value? .workDirectory).getD ".")
  match ← Action.observe
      (Settings.load Yaml.load directory (w.value? .settingsFile) env (givenSettings w)) with
  | .error (.report r) => refuse r
  | .error f => throw f
  | .ok settings => do
    modify fun s => { s with debug := settings.debug }
    match command with
    | none => Job.run settings .menu
    | some c =>
      match (Words.ofArguments? c.switches true arguments).bind (Job.ofWords? c) with
      | none => return usageCode
      | some job => job.run settings

/-- The end that switches ask for before anything is done: the version or the help, whichever comes
first. -/
def earlyExit? (w : Words GlobalSwitch) : Option Exit :=
  w.given.findSome? fun m =>
    match m.1 with
    | .version => some { code := 0, stdout := versionText }
    | .help => some { code := 0 }
    | _ => none

/-- The end of a command line without a command of the name that it gives. Behind two dashes the
words from that name on may still ask for the version or the help. -/
def unknownCommand (words : List String) : Exit :=
  ((Words.ofArguments? globalSwitches false words).bind earlyExit?).getD { code := usageCode }

def runWords (env : Environment) (w : Words GlobalSwitch) : Action Exit := do
  match earlyExit? w with
  | some exit => return exit
  | none =>
    if !(← arePathsSound w) then return { code := usageCode }
    else match w.others with
      | [] => return { code := ← runCommand env w none [] }
      | name :: arguments =>
        match Command.ofName? name with
        | none => return unknownCommand (name :: arguments)
        | some c => return { code := ← runCommand env w (some c) arguments }

/-- What a command line does. When there is nobody to answer, or the operator wishes to stop, it
ends with the exit code of an error. -/
def run (env : Environment) (arguments : List String) : Action Exit := do
  match Words.ofArguments? globalSwitches false arguments with
  | none => return { code := usageCode }
  | some w =>
    match ← Action.observe (runWords env w) with
    | .ok exit => return exit
    | .error .outOfAnswers | .error .interrupted => return { code := 1 }
    | .error f => throw f

end InstanceInventory.CommandLine
