import InstanceInventory.Fault
import InstanceInventory.Pairs
import InstanceInventory.Session

/-! # Actions

* `Action`: something that is done in a session; it may end with a fault, and what was done before
  the fault stays done.
* `say`, `status`, `note`, `cellText`: what the operator is told.
* `draw`, `drawAll`, `marked`: what is shown of texts that may hold marks.
* `look`, `read`, `change`, `did`: the use of the files, and what was done with the document.
* `step`: how a step of an operation went.
-/

namespace InstanceInventory
set_option autoImplicit false
open Console (Item Level)

/-- Something that is done in a session. What was done before a fault stays done. -/
abbrev Action (α : Type) := ExceptT Fault (StateM Session) α

namespace Action

/-- What an action comes to in a session, and the session after it. -/
def outcome {α : Type} (act : Action α) (s : Session) : Except Fault α × Session :=
  (ExceptT.run act).run s

/-- Ends with a report. -/
def report {α : Type} (r : Report) : Action α :=
  throw (.report r)

/-- Ends with a report of a kind. -/
def fail {α : Type} (kind : Report.Kind) (wording : String) : Action α :=
  report (.plain kind wording)

/-- A value, or the end with a fault. -/
def ofExcept {α : Type} : Except Fault α → Action α
  | .ok a => pure a
  | .error f => throw f

/-- A value of a literal, or the end with a fault. -/
def ofLiteral {α : Type} (v : Except Literal.Fault α) : Action α :=
  ofExcept (v.mapError Fault.ofLiteral)

/-- What is made of values, or the end with a fault. -/
def ofShape {α : Type} (v : Except ShapeFault α) : Action α :=
  ofExcept (v.mapError Fault.shape)

/-- An action, and what is done instead once it ends with a report. -/
def recover {α : Type} (act : Action α) (handle : Report → Action α) : Action α :=
  tryCatch act fun
    | .report r => handle r
    | f => throw f

/-- What an action comes to, as a value. -/
def observe {α : Type} (act : Action α) : Action (Except Fault α) :=
  ExceptT.lift (ExceptT.run act)

/-! ## Showing -/

def display (i : Item) : Action Unit :=
  modify fun s => { s with shown := i.displayed :: s.shown }

def displayAll : List Item → Action Unit
  | [] => pure ()
  | i :: is => do
    display i
    displayAll is

/-- What is shown of a text that may hold marks. -/
def marked (text : String) : Action String := do
  match (← get).markup.line text with
  | some text => return text
  | none => throw .unmatchedMark

/-- Shows an item whose texts may hold marks. -/
def draw (i : Item) : Action Unit := do
  match i.read? (← get).markup with
  | some i => display i
  | none => throw .unmatchedMark

def drawAll : List Item → Action Unit
  | [] => pure ()
  | i :: is => do
    draw i
    drawAll is

def say (text : String) : Action Unit :=
  display (.line text)

def tell (level : Level) (text : String) : Action Unit :=
  display (.message level text)

/-- The text of a value in a cell of a table. Null shows nothing, and what is neither cannot be
shown. -/
def cellText : Value → Action String
  | .text s => return s
  | .null => return ""
  | _ => throw .notRenderable

def status (text : String) : Action Unit :=
  tell .info text

def success (text : String) : Action Unit :=
  tell .success text

def warn (text : String) : Action Unit :=
  tell .warning text

def complain (text : String) : Action Unit :=
  tell .error text

/-- Tells a note, where notes are shown. -/
def note (text : String) : Action Unit := do
  if (← get).debug then tell .debug text

/-- Tells notes, where notes are shown. -/
def notes : List String → Action Unit
  | [] => pure ()
  | n :: ns => do
    note n
    notes ns

/-! ## Files -/

def look {α : Type} (f : Session → α) : Action α :=
  return f (← get)

/-- A value from the files, or the end with a fault. -/
def read {α : Type} (f : Session → Except FileFault α) : Action α := do
  match f (← get) with
  | .ok a => return a
  | .error e => throw (.file e)

/-- Changes the files, or ends with a fault and leaves them as they are. -/
def change (f : Session → Except FileFault Files.Tree) : Action Unit := do
  let files ← read f
  modify fun s => { s with files }

/-- Notes what was done with the document or by Terraform. -/
def did (d : Deed) : Action Unit :=
  modify fun s => { s with deeds := d :: s.deeds }

/-! ## Progress -/

/-- Begins an operation: nothing is done yet. -/
def begin : Action Unit :=
  modify fun s => { s with progress := {} }

/-- Notes how a step went. A step that was there before keeps its place. -/
def step (name : String) (succeeded : Bool) (details : String) : Action Unit :=
  modify fun s =>
    let steps := Pairs.set s.progress.steps name ⟨succeeded, details⟩
    { s with progress := { s.progress with steps } }

/-- Gives up an operation at the operator's wish. -/
def cancel (message : String) : Action Unit := do
  status message
  modify fun s => { s with progress := { s.progress with cancelled := true } }

end Action
end InstanceInventory
