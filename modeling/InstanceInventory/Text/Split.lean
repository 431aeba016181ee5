/-! # Splitting text

* `splitWhen`: the pieces between the characters of a class, empty pieces included.
* `lines`: the pieces between newlines.
* `unifyNewlines`: every line ending becomes a newline.
* `isLineBoundary`: the characters that end a line in the output of another program.
-/

namespace InstanceInventory.Text
set_option autoImplicit false

/-! ## Pieces -/

/-- The pieces of a text; `piece` is the one being read, in reverse. -/
def splitFrom (p : Char → Bool) (piece : List Char) : List Char → List (List Char)
  | [] => [piece.reverse]
  | c :: cs => if p c then piece.reverse :: splitFrom p [] cs else splitFrom p (c :: piece) cs

/-- The pieces between the characters that satisfy `p`; a text without any is one piece. -/
def splitWhen (p : Char → Bool) (cs : List Char) : List (List Char) :=
  splitFrom p [] cs

/-- The lines of a text, without their newlines. -/
def lineChars (cs : List Char) : List (List Char) :=
  splitWhen (· == '\n') cs

/-- The lines of a text, without their newlines. -/
def lines (s : String) : List String :=
  (lineChars s.toList).map String.ofList

/-- Lines with a newline between any two of them. -/
def joinLines (ls : List String) : String :=
  "\n".intercalate ls

/-! ## Line endings -/

/-- A carriage return ends a line, alone or with the newline after it. -/
def unifyNewlineChars : List Char → List Char
  | [] => []
  | '\r' :: '\n' :: cs => '\n' :: unifyNewlineChars cs
  | c :: cs => (if c = '\r' then '\n' else c) :: unifyNewlineChars cs

/-- Writes every line ending as one newline. -/
def unifyNewlines (s : String) : String :=
  String.ofList (unifyNewlineChars s.toList)

/-- The characters that end a line in another program's output. -/
def isLineBoundary (c : Char) : Bool :=
  (0x0A ≤ c.toNat && c.toNat ≤ 0x0D) || (0x1C ≤ c.toNat && c.toNat ≤ 0x1E) || c.toNat == 0x85 ||
    c.toNat == 0x2028 || c.toNat == 0x2029

end InstanceInventory.Text
