import Authorization.Mask.Basic
import Authorization.Text.Blank
import Authorization.Text.Integer
import Authorization.Text.Split

/-!
# Masks as text

A mask is written as the names of its capabilities between vertical bars; bits without a name
follow as one hexadecimal number. Reading accepts every name of the vocabulary, hexadecimal
numbers, and blanks around each piece; a blank text is the empty mask.
-/

namespace Authorization.Mask

variable {v : Vocabulary}

/-- The names that a mask is written with, and the bits they leave over. A name is written if the
mask holds all of its bits and no name before has covered them all. -/
def cover (mask : Mask v) :
    List (String × BitVec 64) → BitVec 64 → List String × BitVec 64
  | [], remaining => ([], remaining)
  | (name, flag) :: rest, remaining =>
    if flag &&& mask.bits = flag ∧ flag &&& remaining ≠ 0 then
      let (names, left) := cover mask rest (remaining &&& ~~~flag)
      (name :: names, left)
    else cover mask rest remaining

/-- A number in lower-case hexadecimal digits. -/
def hexadecimal (bits : BitVec 64) : String :=
  "0x" ++ String.ofList (Nat.toDigits 16 bits.toNat)

/-- A mask as a text: the names of flags that cover it, and the rest as a number. -/
def serialize (mask : Mask v) : String :=
  let (names, left) := cover mask v.flags mask.bits
  Text.joinWith " | " (names ++ if left = 0 then [] else [hexadecimal left])

/-- A mask as shown to developers: zero for the empty mask. -/
def describe (mask : Mask v) : String :=
  if mask.isEmpty then "0x0" else mask.serialize

/-- Reads one piece of a mask: a name, or a hexadecimal number of 64 bits. -/
def parsePiece? (v : Vocabulary) (piece : List Char) : Option (BitVec 64) :=
  match piece with
  | '0' :: 'x' :: digits =>
    ((Text.unsigned? 16 digits).filter (· ≤ 0xffffffffffffffff)).map (BitVec.ofNat 64)
  | _ => (v.flags.find? fun flag => flag.1.toList = piece).map Prod.snd

/-- The mask that a text stands for: the bits of all its pieces. A blank text has none. -/
def parse? (text : String) : Option (Mask v) :=
  if (Text.trimmed text.toList).isEmpty then some ∅
  else ((Text.split '|' text.toList).mapM fun piece => parsePiece? v (Text.trimmed piece)).map
    fun parts => ⟨parts.foldl (· ||| ·) 0⟩

end Authorization.Mask
