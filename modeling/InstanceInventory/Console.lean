import InstanceInventory.Text.Blank

/-! # What the operator sees

* `Reply`: what comes back when the operator is asked.
* `Markup`: how texts with marks in them are read.
* `Item`: a line, a panel, a table or a question, in the order in which they are shown.
* `Level`: the mark in front of a message.
-/

namespace InstanceInventory.Console
set_option autoImplicit false

/-- What comes back when the operator is asked: a text, or the wish to stop. -/
inductive Reply where
  | given (text : String)
  | interrupt
  deriving DecidableEq, Repr

/-- How a console reads texts that may hold marks: the text that is shown, or nothing where a mark is
closed that is not open. The cells of a table are read as the table is laid out. -/
structure Markup where
  line : String → Option String
  cell : String → Option String
  /-- A mark that closes another has a slash. -/
  line_isSome : ∀ text, '/' ∉ text.toList → (line text).isSome = true

/-- A console that knows no marks. -/
def Markup.none : Markup where
  line := some
  cell := some
  line_isSome _ _ := rfl

/-- Something that is shown. A table may have no headings. A question has no reply if there was
nobody to answer it. -/
inductive Item where
  | line (text : String)
  | panel (text : String)
  | table (title : String) (headings : Option (List String)) (rows : List (List String))
  | question (text : String) (reply : Option Reply)
  deriving DecidableEq, Repr

/-- The weight of a message. -/
inductive Level where
  | info | success | warning | error | debug
  deriving DecidableEq, Repr

def Level.mark : Level → String
  | .info => "[INFO]"
  | .success => "[SUCCESS]"
  | .warning => "[WARNING]"
  | .error => "[ERROR]"
  | .debug => "[DEBUG]"

/-- A character that moves the cursor or rings instead of being shown. -/
def isControl (c : Char) : Bool :=
  c == '\x07' || c == '\x08' || c == '\x0b' || c == '\x0c' || c == '\r'

def shown (text : String) : String :=
  String.ofList (text.toList.filter fun c => !isControl c)

namespace Item

def message (level : Level) (text : String) : Item :=
  .line (level.mark ++ " " ++ text)

def header (title : String) : List Item :=
  [.line "", .panel title, .line ""]

def subheader (title : String) : List Item :=
  [.line "", .line ("── " ++ title ++ " ──"), .line ""]

def bullet (text : String) : Item :=
  .line ("  • " ++ text)

/-- An item whose texts may hold marks, as it is shown; nothing where one cannot be read. Questions
are read before they are asked. -/
def read? (m : Markup) : Item → Option Item
  | .line text => (m.line text).map .line
  | .panel text => (m.line text).map .panel
  | .table title headings rows => do
    let title ← m.cell title
    let headings ← headings.mapM fun hs => hs.mapM m.cell
    let rows ← rows.mapM fun row => row.mapM m.cell
    return .table title headings rows
  | .question text reply => some (.question text reply)

def displayed : Item → Item
  | .line text => .line (shown text)
  | .panel text => .panel (shown text)
  | .table title headings rows =>
    .table (shown title) (headings.map (List.map shown)) (rows.map (List.map shown))
  | .question text reply => .question (shown text) reply

end Item
end InstanceInventory.Console
