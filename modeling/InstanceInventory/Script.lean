/-! # Scripts

* `Script`: what the outside world will answer, by the kind of question.
* `Script.next?`: the next answer, with the script for the questions after it.
-/

namespace InstanceInventory
set_option autoImplicit false

/-- The answers to come, by the kind of question. The last answer to a kind stays. -/
structure Script (κ α : Type) where
  answers : List (κ × List α)
  deriving Inhabited

namespace Script
variable {κ α : Type}

def empty : Script κ α := ⟨[]⟩

/-- What is left of answers after the first was used; the last one stays. -/
def afterFirst : List α → List α
  | _ :: b :: rest => b :: rest
  | answers => answers

/-- The next answer to a kind of question, with the script after it. -/
def next? [BEq κ] (s : Script κ α) (kind : κ) : Option (α × Script κ α) :=
  match s.answers.find? (·.1 == kind) with
  | some (_, answer :: _) =>
    some (answer, ⟨s.answers.map fun e => if e.1 == kind then (e.1, afterFirst e.2) else e⟩)
  | _ => none

end Script
end InstanceInventory
