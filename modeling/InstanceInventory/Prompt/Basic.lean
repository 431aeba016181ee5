import InstanceInventory.Action
import InstanceInventory.Number.Reading
import InstanceInventory.Text.Lowercase

/-! # Asking the operator

* `Prompt.ask`: asks once.
* `Prompt.untilDone`: repeats a round of questions until it is done. Every round asks at least
  once, so there are no more rounds than answers.
* `Prompt.text`, `Prompt.choice`, `Prompt.integer`, `Prompt.confirm`: questions that are asked again
  until the answer is of the right kind.
-/

namespace InstanceInventory.Prompt
set_option autoImplicit false

/-! ## Asking -/

/-- Asks once. While it waits, others may change the files. -/
def ask (question : String) : Action String := do
  let s ← get
  match s.answers with
  | [] =>
    Action.display (.question question none)
    throw .outOfAnswers
  | answer :: answers =>
    set { s with answers, files := answer.meanwhile s.files }
    Action.display (.question question (some answer.reply))
    match answer.reply with
    | .given text => return text
    | .interrupt => throw .interrupted

/-- Repeats a round until it is done, at most a number of times. -/
def repeatRounds {σ α : Type} (round : σ → Action (σ ⊕ α)) : Nat → σ → Action α
  | 0, _ => throw .outOfAnswers
  | rounds + 1, state => do
    match ← round state with
    | .inl state => repeatRounds round rounds state
    | .inr a => return a

/-- Repeats a round, which must ask at least once, until it is done. -/
def untilDone {σ α : Type} (round : σ → Action (σ ⊕ α)) (state : σ) : Action α := do
  repeatRounds round ((← get).answers.length + 1) state

/-! ## Forms -/

/-- What a good answer is: how the text without the blanks around it is read, or what is said about
a text that is none. -/
abbrev Reader (α : Type) := String → Except String α

/-- One round of a question. An empty answer stands for the value that is offered, if there is
one. -/
def round {α : Type} (question : String) (offered : Option α) (reader : Reader α) (_ : Unit) :
    Action (Unit ⊕ α) := do
  let answer ← ask question
  match if answer.isEmpty then offered else none with
  | some v => return .inr v
  | none =>
    match reader (Text.trim answer) with
    | .ok v => return .inr v
    | .error complaint => do
      Action.say complaint
      return .inl ()

def worded (question : String) (choices : List String) (offered : Option String) : String :=
  question ++ (if choices.isEmpty then "" else " [" ++ "/".intercalate choices ++ "]") ++
    (match offered with
      | some text => " (" ++ text ++ ")"
      | none => "") ++ ": "

/-- Asks until the answer is good. The question may hold marks; the choices and the value that is
offered stand as they are. -/
def untilGood {α : Type} (question : String) (choices : List String) (shown : Option String)
    (offered : Option α) (reader : Reader α) : Action α := do
  let question ← Action.marked question
  untilDone (round (worded question choices shown) offered reader) ()

def among (choices : List String) (text : String) : Except String Unit :=
  if choices.contains text then .ok () else .error "Please select one of the available options"

/-! ## Questions -/

def text (question : String) (offered : Option String) : Action String :=
  untilGood question [] offered offered .ok

def choice (question : String) (choices : List String) (offered : String) : Action String :=
  untilGood question choices (some offered) (some offered) fun t => do
    among choices t
    return t

def integerReader : Reader Int := fun t =>
  match readInteger? t with
  | some n => .ok n
  | none => .error "Please enter a valid integer number"

def integer (question : String) (offered : Int) : Action Int :=
  untilGood question [] (some (integerText offered)) (some offered) integerReader

def numbersTo (last : Nat) : List String :=
  (List.range last).map fun i => countText (i + 1)

/-- Asks for a number from one to a last one; the first is offered. -/
def numberTo (question : String) (last : Nat) : Action Int :=
  untilGood question (numbersTo last) (some "1") (some 1) fun t => do
    let n ← integerReader t
    among (numbersTo last) t
    return n

def confirm (question : String) (offered : Bool) : Action Bool :=
  untilGood question ["y", "n"] (some (if offered then "y" else "n")) (some offered) fun t =>
      match Text.lower t with
      | "y" => .ok true
      | "n" => .ok false
      | _ => .error "Please enter Y or N"

/-- Asks for a text that is not empty, and says `complaint` about one that is. -/
def required (question complaint : String) : Action String :=
  untilDone (fun _ => do
    let answer ← text question none
    if answer.isEmpty then
      Action.complain complaint
      return .inl ()
    else return .inr answer) ()

def optional (question : String) : Action (Option String) := do
  let answer ← text question (some "")
  return if answer.isEmpty then none else some answer

end InstanceInventory.Prompt
