import InstanceInventory.Console

/-! # Plain screens

* `Item.screenText`: an item as text for a screen without colours.
-/

namespace InstanceInventory.Console
set_option autoImplicit false

/-- A line above and below a text. -/
def ruled (text : String) : String :=
  let rule := String.ofList (List.replicate 60 '-')
  rule ++ "\n" ++ text ++ "\n" ++ rule

def rowText (cells : List String) : String :=
  " | ".intercalate cells

/-- An item as text for a screen. The reply to a question stands there already. -/
def Item.screenText : Item → String
  | .line text => text ++ "\n"
  | .panel text => ruled text ++ "\n"
  | .table title headings rows =>
    let lines := title :: (headings.map rowText).toList ++ rows.map rowText
    String.join (lines.map fun l => l ++ "\n")
  | .question text _ => text

/-- Whether an item is a question that nobody has answered. -/
def Item.isOpen : Item → Bool
  | .question _ none => true
  | _ => false

end InstanceInventory.Console
