import InstanceInventory.Literal.Error
import InstanceInventory.Text.Blank
import InstanceInventory.Value.Basic
import InstanceInventory.Yaml.Cursor

/-! # What can go wrong

* `Report`: an error that is reported to the operator, with its wording and exit code.
* `Fault`: whatever ends an operation early: a report, or a fault of the outside world that is
  passed on as it is.
-/

namespace InstanceInventory
set_option autoImplicit false

/-! ## Reports -/

/-- The kinds of report that say nothing beyond their wording. -/
inductive Report.Kind where
  | general | usage | settings | recordParse | unbalancedDocument | documentInvariant
  | lockTimeout | collaborator | provider
  deriving DecidableEq, Repr

/-- An error that is reported to the operator. -/
inductive Report where
  | plain (kind : Report.Kind) (wording : String)
  | duplicateRecord (key : String) (existingName : Option String)
  | recordNotFound (key : String) (available : List String)
  | invalidRecord (problems : List String)
  | terraform (command : List String) (exitStatus : Int) (stderr : String)
  | postWrite (wording : String) (backup : Option String) (restored : Bool)
  deriving DecidableEq, Repr

namespace Report

def name : Report → String
  | .plain .general _ => "ManagerError"
  | .plain .usage _ => "UsageError"
  | .plain .settings _ => "SettingsError"
  | .plain .recordParse _ => "RecordParseError"
  | .plain .unbalancedDocument _ => "UnbalancedDocumentError"
  | .plain .documentInvariant _ => "DocumentInvariantError"
  | .plain .lockTimeout _ => "LockTimeoutError"
  | .plain .collaborator _ => "ExternalCollaboratorError"
  | .plain .provider _ => "ProviderError"
  | .duplicateRecord .. => "DuplicateRecordError"
  | .recordNotFound .. => "RecordNotFoundError"
  | .invalidRecord _ => "RecordValidationError"
  | .terraform .. => "TerraformError"
  | .postWrite .. => "PostWriteValidationError"

/-- The exit code of a command that ends with a report. -/
def exitCode : Report → Nat
  | .plain .general _ | .plain .recordParse _ => 1
  | .plain .usage _ | .plain .settings _ => 2
  | .invalidRecord _ | .postWrite .. => 3
  | .plain .collaborator _ | .plain .provider _ | .terraform .. => 4
  | .recordNotFound .. => 5
  | .duplicateRecord .. => 6
  | .plain .unbalancedDocument _ | .plain .documentInvariant _ | .plain .lockTimeout _ => 7

def message : Report → String
  | .plain _ wording | .postWrite wording _ _ => wording
  | .duplicateRecord key existing =>
    "Instance '" ++ key ++ "' already exists in the configuration" ++
      match existing with
      | some name => if name.isEmpty then "" else " (Name tag: " ++ Text.quoted name ++ ")"
      | none => ""
  | .recordNotFound key _ => "Instance '" ++ key ++ "' not found in the configuration"
  | .invalidRecord problems => "Invalid instance configuration: " ++ "; ".intercalate problems
  | .terraform command status stderr =>
    "Terraform " ++ " ".intercalate ((command.drop 1).take 1) ++ " failed: " ++
      if Text.isBlankText stderr then "exit status " ++ integerText status else Text.trim stderr

end Report

/-! ## Faults -/

/-- What the file system refuses. -/
inductive FileFault where
  | notFound | alreadyExists | isDirectory | notDirectory | undecodable
  | nameTooLong | nullCharacter | sameFile
  deriving DecidableEq, Repr

/-- Whatever ends an operation early. -/
inductive Fault where
  | report (r : Report)
  | shape (f : ShapeFault)
  | file (f : FileFault)
  | malformedLiteral (e : Literal.SyntaxError)
  | noSuchCharacter (codePoint : Nat)
  | scalar (f : Yaml.ScalarFault)
  | notRenderable
  | tooLarge
  | tooManyDigits
  | unnamedDocument
  | noHome
  | unmatchedMark
  | outOfAnswers
  | interrupted
  deriving DecidableEq, Repr

namespace Fault

def plain (kind : Report.Kind) (wording : String) : Fault :=
  .report (.plain kind wording)

def ofLiteral : Literal.Fault → Fault
  | .malformed e => .malformedLiteral e
  | .noSuchCharacter n => .noSuchCharacter n

end Fault

end InstanceInventory
