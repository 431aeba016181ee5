import InstanceInventory.Text.Blank

/-! # Lines that open a block

* `opensBlock name line`: the line is the name, an equals sign and an opening brace, with blanks
  between them; anything may follow.
* `opensInstanceMap`: the line that opens the map of instances.
* `opensRecord key`: the line that opens the block of a record, its key bare or quoted.
-/

namespace InstanceInventory.Document
set_option autoImplicit false

/-- An equals sign and an opening brace, with blanks before each. -/
def assignsBlock (cs : List Char) : Bool :=
  match Text.trimStart cs with
  | '=' :: rest => (Text.trimStart rest).head? == some '\x7b'
  | _ => false

/-- A name at the head of a text, assigned a block. -/
def namesBlock (name cs : List Char) : Bool :=
  name.isPrefixOf cs && assignsBlock (cs.drop name.length)

/-- A name after blanks, assigned a block. The name itself may begin with blanks, so every place in
the leading blanks is tried. -/
def opensBlockChars (name : List Char) : List Char → Bool
  | [] => false
  | c :: cs => namesBlock name (c :: cs) || (Text.isBlank c && opensBlockChars name cs)

def opensInstanceMap (line : String) : Bool :=
  opensBlockChars "instances".toList line.toList

/-- The line that opens the block of the record with a key, bare or quoted. -/
def opensRecord (key line : String) : Bool :=
  opensBlockChars key.toList line.toList ||
    opensBlockChars ('"' :: (key.toList ++ ['"'])) line.toList

end InstanceInventory.Document
