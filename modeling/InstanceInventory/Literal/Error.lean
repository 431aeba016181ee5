import InstanceInventory.Text.Quoted
import InstanceInventory.Number.Basic

/-! # Malformed text

* `SyntaxError`: why a text is no literal, and where.
* `Fault`: a syntax error, or an escape that names no character.
-/

namespace InstanceInventory.Literal
set_option autoImplicit false

/-- Why a text cannot be split into tokens or is not a literal value. -/
inductive SyntaxError.Cause where
  | unterminatedComment
  | unterminatedString
  | danglingEscape
  | unknownEscape (c : Char)
  | invalidUnicodeEscape
  | unterminatedTemplate
  | unterminatedHeredoc (marker : String)
  | endOfInput
  | unexpected (expected : List String) (found : String)
  | templateInKey
  | templateInValue (text : String)
  | unsupported (text : String)
  | unterminatedObject
  | duplicateKey (key : String)
  | unexpectedAfterValue (found key : String)
  | unterminatedTuple
  | expectedInTuple
  | trailingValue
  | trailingEntry
  deriving DecidableEq, Repr

namespace SyntaxError.Cause

def message : Cause → String
  | .unterminatedComment => "unterminated block comment"
  | .unterminatedString => "unterminated string"
  | .danglingEscape => "dangling escape"
  | .unknownEscape c => "invalid escape sequence \\" ++ String.ofList [c]
  | .invalidUnicodeEscape => "invalid unicode escape"
  | .unterminatedTemplate => "unterminated template interpolation"
  | .unterminatedHeredoc marker => "unterminated heredoc " ++ marker
  | .endOfInput => "unexpected end of input"
  | .unexpected expected found =>
    "expected " ++ " or ".intercalate expected ++ ", found " ++ Text.quoted found
  | .templateInKey => "object keys may not contain templates"
  | .templateInValue text => "template expression " ++ text ++ " is not a literal"
  | .unsupported text => "unsupported expression starting at " ++ Text.quoted text
  | .unterminatedObject => "unterminated object"
  | .duplicateKey key => "duplicate key " ++ Text.quoted key
  | .unexpectedAfterValue found key =>
    "unexpected " ++ Text.quoted found ++ " after value of " ++ Text.quoted key
  | .unterminatedTuple => "unterminated tuple"
  | .expectedInTuple => "expected ',' or ']' in tuple"
  | .trailingValue => "trailing content after value"
  | .trailingEntry => "trailing content after entry"

end SyntaxError.Cause

/-- A cause with the line on which it shows, when there is one. -/
structure SyntaxError where
  cause : SyntaxError.Cause
  line : Option Nat
  deriving DecidableEq, Repr

/-- A wording with the line to which it belongs; lines are counted from one. -/
def SyntaxError.located (line : Option Nat) (wording : String) : String :=
  match line with
  | some n => "line " ++ countText (n + 1) ++ ": " ++ wording
  | none => wording

def SyntaxError.message (e : SyntaxError) : String :=
  located e.line e.cause.message

/-- What stops the reading of a text. An escape that names a code point beyond the last character
is not reported as a syntax error. -/
inductive Fault where
  | malformed (e : SyntaxError)
  | noSuchCharacter (codePoint : Nat)
  deriving DecidableEq, Repr

def Fault.atLine (cause : SyntaxError.Cause) (line : Nat) : Fault :=
  .malformed ⟨cause, some line⟩

def Fault.atEnd (cause : SyntaxError.Cause) : Fault :=
  .malformed ⟨cause, none⟩

end InstanceInventory.Literal
