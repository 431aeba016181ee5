/-! # Switches

* `Switch`: a word that turns something on, or that is followed by a value.
* `Words.ofArguments?`: the switches and the other words of a command line.

A switch of two dashes may have its value behind an equals sign; switches of one letter may be
written together, the value of the last one behind it.
-/

namespace InstanceInventory.CommandLine
set_option autoImplicit false

variable {σ : Type}

/-- What a word of a command line stands for. -/
structure Switch (σ : Type) where
  word : String
  meaning : σ
  takesValue : Bool

abbrev Mention (σ : Type) := σ × Option String

/-- The switches and the other words of a command line, in order. -/
structure Words (σ : Type) where
  given : List (Mention σ)
  others : List String

namespace Words

def empty : Words σ := ⟨[], []⟩

def after (given : List (Mention σ)) (w : Words σ) : Words σ :=
  { w with given := given ++ w.given }

def afterOther (word : String) (w : Words σ) : Words σ :=
  { w with others := word :: w.others }

end Words

/-! ## One argument -/

/-- The switches of one argument, and the one whose value is in the next argument. -/
structure Reading (σ : Type) where
  given : List (Mention σ)
  waiting : Option σ

def switch? (table : List (Switch σ)) (word : String) : Option (Switch σ) :=
  table.find? (·.word == word)

/-- The switches of letters that are written together. -/
def readLetters? (table : List (Switch σ)) : List Char → Option (Reading σ)
  | [] => some ⟨[], none⟩
  | c :: cs =>
    match switch? table (String.ofList ['-', c]) with
    | none => none
    | some s =>
      if !s.takesValue then
        (readLetters? table cs).map fun r => { r with given := (s.meaning, none) :: r.given }
      else if cs.isEmpty then some ⟨[], some s.meaning⟩
      else some ⟨[(s.meaning, some (String.ofList cs))], none⟩

/-- The switch of a word of two dashes. -/
def readWord? (table : List (Switch σ)) (cs : List Char) : Option (Reading σ) :=
  let word := cs.takeWhile (· != '=')
  match switch? table (String.ofList word), cs.drop word.length with
  | some s, [] =>
    some (if s.takesValue then ⟨[], some s.meaning⟩ else ⟨[(s.meaning, none)], none⟩)
  | some s, _ :: value =>
    if s.takesValue then some ⟨[(s.meaning, some (String.ofList value))], none⟩ else none
  | none, _ => none

/-- The switches of an argument; `none` if there are no such switches. -/
def readArgument? (table : List (Switch σ)) (argument : String) : Option (Reading σ) :=
  match argument.toList with
  | '-' :: '-' :: cs => readWord? table ('-' :: '-' :: cs)
  | '-' :: cs => readLetters? table cs
  | _ => none

/-- Whether an argument is written like a switch. A single dash is not. -/
def isSwitchLike (argument : String) : Bool :=
  match argument.toList with
  | '-' :: _ :: _ => true
  | _ => false

/-! ## All arguments -/

/-- The words of arguments; `none` if a switch is unknown, lacks its value or has one too many. Two
dashes alone end the switches. Unless switches are `mixed` with other words, the first other word
ends them too. -/
def Words.ofArguments? (table : List (Switch σ)) (mixed : Bool) :
    List String → Option (Words σ)
  | [] => some .empty
  | argument :: rest =>
    if argument == "--" then some ⟨[], rest⟩
    else if isSwitchLike argument then
      match readArgument? table argument with
      | none => none
      | some ⟨given, none⟩ => (ofArguments? table mixed rest).map (Words.after given)
      | some ⟨given, some waiting⟩ =>
        match rest with
        | [] => none
        | value :: rest =>
          (ofArguments? table mixed rest).map (Words.after (given ++ [(waiting, some value)]))
    else if mixed then (ofArguments? table mixed rest).map (Words.afterOther argument)
    else some ⟨[], argument :: rest⟩

def Words.has [BEq σ] (w : Words σ) (meaning : σ) : Bool :=
  w.given.any (·.1 == meaning)

/-- The last value given for a meaning. -/
def Words.value? [BEq σ] (w : Words σ) (meaning : σ) : Option String :=
  (w.given.reverse.find? (·.1 == meaning)).bind Prod.snd

end InstanceInventory.CommandLine
