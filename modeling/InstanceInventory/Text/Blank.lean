/-! # Blank characters

* `isBlank`: the characters that separate words and may be trimmed, in any script.
* `trimStart`, `trimEnd`, `trim`: a text without the blanks at its edges.
* `words`: the maximal runs of characters that are not blank.
-/

namespace InstanceInventory.Text
set_option autoImplicit false

/-! ## The class -/

/-- The ranges of code points that count as blank: the controls from tab to carriage return, the
four information separators, and every space and line separator of any script. -/
def blankRanges : List (Nat × Nat) :=
  [(0x09, 0x0D), (0x1C, 0x20), (0x85, 0x85), (0xA0, 0xA0), (0x1680, 0x1680), (0x2000, 0x200A),
    (0x2028, 0x2029), (0x202F, 0x202F), (0x205F, 0x205F), (0x3000, 0x3000)]

/-- A character that separates words. -/
def isBlank (c : Char) : Bool :=
  blankRanges.any fun r => r.1 ≤ c.toNat && c.toNat ≤ r.2

/-- A text made of blanks only, the empty text included. -/
def allBlank (cs : List Char) : Bool :=
  cs.all isBlank

/-! ## Trimming -/

/-- The characters from the first that is not blank. -/
def trimStart (cs : List Char) : List Char :=
  cs.dropWhile isBlank

/-- The characters up to the last that fails `p`. -/
def dropEndWhile (p : Char → Bool) (cs : List Char) : List Char :=
  (cs.reverse.dropWhile p).reverse

/-- The characters up to the last that is not blank. -/
def trimEnd (cs : List Char) : List Char :=
  dropEndWhile isBlank cs

/-- The characters between the first and the last that are not blank. -/
def trimChars (cs : List Char) : List Char :=
  trimEnd (trimStart cs)

def trim (s : String) : String :=
  String.ofList (trimChars s.toList)

def isBlankText (s : String) : Bool :=
  allBlank s.toList

/-! ## Words -/

/-- The words of a text; `word` is the one being read, its characters in reverse. -/
def wordsFrom (word : List Char) : List Char → List (List Char)
  | [] => if word.isEmpty then [] else [word.reverse]
  | c :: cs =>
    if isBlank c then
      if word.isEmpty then wordsFrom [] cs else word.reverse :: wordsFrom [] cs
    else wordsFrom (c :: word) cs

/-- The maximal runs of characters that are not blank, in order. -/
def words (s : String) : List String :=
  (wordsFrom [] s.toList).map String.ofList

end InstanceInventory.Text
