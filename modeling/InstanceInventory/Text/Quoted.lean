import InstanceInventory.Text.Printable

/-! # Quoted text in messages

* `quoted`: a text between quotes, with every character that a reader could not see written as an
  escape.
* `listing`, `mapping`: several shown values between brackets or braces.
-/

namespace InstanceInventory.Text
set_option autoImplicit false

/-! ## Escapes -/

/-- The lower-case hexadecimal digits of a number, filled with zeros to a width. -/
def hexDigits (width n : Nat) : List Char :=
  let digits := Nat.toDigits 16 n
  List.replicate (width - digits.length) '0' ++ digits

/-- One character inside quotes: the quote, the backslash and the three common controls have short
escapes, other unprintable characters are written by code point. -/
def quotedChar (quote c : Char) : List Char :=
  if c = quote || c = '\\' then ['\\', c]
  else if c = '\n' then ['\\', 'n']
  else if c = '\r' then ['\\', 'r']
  else if c = '\t' then ['\\', 't']
  else if isPrintable c then [c]
  else if c.toNat ≤ 0xFF then '\\' :: 'x' :: hexDigits 2 c.toNat
  else if c.toNat ≤ 0xFFFF then '\\' :: 'u' :: hexDigits 4 c.toNat
  else '\\' :: 'U' :: hexDigits 8 c.toNat

/-- Single quotes are used unless only they would need an escape. -/
def quoteFor (cs : List Char) : Char :=
  if cs.contains '\'' && !cs.contains '"' then '"' else '\''

def quoted (s : String) : String :=
  let quote := quoteFor s.toList
  String.ofList (quote :: (s.toList.flatMap (quotedChar quote) ++ [quote]))

/-! ## Collections -/

def listing (items : List String) : String :=
  "[" ++ ", ".intercalate items ++ "]"

def mapping (entries : List (String × String)) : String :=
  "\x7b" ++ ", ".intercalate (entries.map fun e => e.1 ++ ": " ++ e.2) ++ "\x7d"

end InstanceInventory.Text
