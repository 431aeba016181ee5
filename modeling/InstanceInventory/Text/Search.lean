/-! # Searching text

* `contains`: whether a text holds another one.
-/

namespace InstanceInventory.Text
set_option autoImplicit false

def containsChars (part : List Char) : List Char → Bool
  | [] => part.isEmpty
  | c :: cs => part.isPrefixOf (c :: cs) || containsChars part cs

def contains (s part : String) : Bool :=
  containsChars part.toList s.toList

def beginsWith (s start : String) : Bool :=
  start.toList.isPrefixOf s.toList

end InstanceInventory.Text
