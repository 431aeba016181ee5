import InstanceInventory.Files.Path
import InstanceInventory.Number.Double

/-! # Settings

* `Settings`: how the inventory is kept, with the values that hold where nothing is said.
* `Setting`: the names of what can be set.
-/

namespace InstanceInventory
set_option autoImplicit false

/-- A named search for an image: the newest one of an owner whose name matches a pattern. -/
structure ImagePreset where
  label : String
  pattern : String
  owner : String
  deriving DecidableEq, Repr, Inhabited

/-- The searches that are offered where no others are set. -/
def ImagePreset.standard : List ImagePreset :=
  [⟨"Latest Amazon Linux 2023", "al2023-ami-*-x86_64", "amazon"⟩,
    ⟨"Latest Ubuntu 22.04 LTS", "ubuntu/images/hvm-ssd/ubuntu-jammy-22.04-amd64-server-*",
      "099720109477"⟩,
    ⟨"Latest Ubuntu 20.04 LTS", "ubuntu/images/hvm-ssd/ubuntu-focal-20.04-amd64-server-*",
      "099720109477"⟩]

/-- The instance types that are suggested where no others are set. -/
def standardTypeHints : List String :=
  ["t3.micro, t3.small, t3.medium, t3.large", "c5.large, c5.xlarge, c5.2xlarge, c5.4xlarge",
    "m5.large, m5.xlarge, m5.2xlarge, m5.4xlarge"]

/-- How the inventory is kept. -/
structure Settings where
  workDirectory : Files.Path
  document : String := "main.tf"
  region : String := "ap-northeast-1"
  profile : Option String := none
  environment : String := "staging"
  providerVersion : String := "~> 5.0"
  preventDestroy : Bool := true
  terraformBinary : String := "terraform"
  backupDirectory : Option Files.Path := none
  lockTimeout : Double := .ofDecimal false 10 0
  maxAttempts : Int := 1
  retryBaseDelay : Double := .ofDecimal false 2 0
  debug : Bool := false
  imagePresets : List ImagePreset := ImagePreset.standard
  instanceTypeHints : List String := standardTypeHints
  deriving DecidableEq, Repr

namespace Settings

def documentPath (s : Settings) : Files.Path :=
  s.workDirectory.child s.document

/-- Where backups are kept: in the work directory, or in a directory that counts from there. -/
def backupPath (s : Settings) : Files.Path :=
  match s.backupDirectory with
  | some d => s.workDirectory.join d
  | none => s.workDirectory

end Settings

/-! ## Names -/

/-- What can be set. -/
inductive Setting where
  | document | region | profile | environment | providerVersion | preventDestroy
  | terraformBinary | backupDirectory | lockTimeout | maxAttempts | retryBaseDelay | debug
  | imagePresets | instanceTypeHints
  deriving DecidableEq, Repr

namespace Setting

def name : Setting → String
  | .document => "document"
  | .region => "region"
  | .profile => "profile"
  | .environment => "environment"
  | .providerVersion => "provider_version"
  | .preventDestroy => "prevent_destroy"
  | .terraformBinary => "terraform_binary"
  | .backupDirectory => "backup_dir"
  | .lockTimeout => "lock_timeout"
  | .maxAttempts => "max_attempts"
  | .retryBaseDelay => "retry_base_delay"
  | .debug => "debug"
  | .imagePresets => "image_presets"
  | .instanceTypeHints => "instance_type_hints"

def all : List Setting :=
  [.document, .region, .profile, .environment, .providerVersion, .preventDestroy,
    .terraformBinary, .backupDirectory, .lockTimeout, .maxAttempts, .retryBaseDelay, .debug,
    .imagePresets, .instanceTypeHints]

def ofName? (name : String) : Option Setting :=
  all.find? fun s => s.name == name

end Setting
end InstanceInventory
