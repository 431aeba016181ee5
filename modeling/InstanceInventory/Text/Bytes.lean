import InstanceInventory.Text.Quoted

/-! # Bytes as text

* `Bytes.shown`: bytes between quotes inside a message.
* `Bytes.ofBase64?`: the bytes that groups of four characters write.
-/

namespace InstanceInventory.Text.Bytes
set_option autoImplicit false

/-! ## Messages -/

/-- One byte inside quotes: what is no printable character of seven bits is written by its
number. -/
def shownByte (quote : Char) (b : UInt8) : List Char :=
  if b.toNat < 0x7F then quotedChar quote (Char.ofNat b.toNat)
  else '\\' :: 'x' :: hexDigits 2 b.toNat

/-- Bytes between quotes, with a mark before them. -/
def shown (bs : List UInt8) : String :=
  let quote := quoteFor (bs.map fun b => Char.ofNat b.toNat)
  String.ofList ('b' :: quote :: (bs.flatMap (shownByte quote) ++ [quote]))

/-! ## Groups of four characters -/

def sixBits? (c : Char) : Option Nat :=
  if 'A' ≤ c && c ≤ 'Z' then some (c.toNat - 'A'.toNat)
  else if 'a' ≤ c && c ≤ 'z' then some (c.toNat - 'a'.toNat + 26)
  else if c.isDigit then some (c.toNat - '0'.toNat + 52)
  else if c == '+' then some 62
  else if c == '/' then some 63
  else none

/-- The bytes after the `place` characters of a group that have been read: `held` holds the bits
that they leave over, and `pads` counts the padding since the last of them. A group of two or more
characters that the padding fills ends the text; other characters are passed over. -/
def fromGroup (place held pads : Nat) : List Char → Option (List UInt8)
  | [] => if place = 0 then some [] else none
  | c :: cs =>
    if c = '=' then
      if 2 ≤ place ∧ 4 ≤ place + pads + 1 then some []
      else fromGroup place held (if 2 ≤ place then pads + 1 else pads) cs
    else match sixBits? c with
    | none => fromGroup place held pads cs
    | some bits =>
      let add := fun (b : Nat) (rest : Option (List UInt8)) => rest.map (b.toUInt8 :: ·)
      if place = 0 then fromGroup 1 bits 0 cs
      else if place = 1 then add (4 * held + bits / 16) (fromGroup 2 (bits % 16) 0 cs)
      else if place = 2 then add (16 * held + bits / 4) (fromGroup 3 (bits % 4) 0 cs)
      else add (64 * held + bits) (fromGroup 0 0 0 cs)

/-- The bytes that a text writes in groups of four characters; none if a group is not full. -/
def ofBase64? (cs : List Char) : Option (List UInt8) :=
  fromGroup 0 0 0 cs

end InstanceInventory.Text.Bytes
