/-!
# UTF-16

Text as 16-bit units. A character below `10000` (hexadecimal) is one unit; any other is a pair of
a high and a low surrogate. Units with a surrogate outside such a pair are no text.

## Main definitions

* `Utf16.encode`, `Utf16.decode` — text as units, and units as text where they are some.
-/
namespace StorageBus.Text.Utf16

/-- The first unit of a pair. -/
def isHigh (u : UInt16) : Bool := 0xD800 ≤ u && u < 0xDC00

/-- The second unit of a pair. -/
def isLow (u : UInt16) : Bool := 0xDC00 ≤ u && u < 0xE000

/-- The units of one character. -/
def units (c : Char) : List UInt16 :=
  if c.toNat < 0x10000 then [UInt16.ofNat c.toNat]
  else
    let offset := c.toNat - 0x10000
    [UInt16.ofNat (0xD800 + offset / 0x400), UInt16.ofNat (0xDC00 + offset % 0x400)]

def encode (s : String) : List UInt16 := s.toList.flatMap units

/-- The character of a surrogate pair. -/
def paired (high low : UInt16) : Char :=
  Char.ofNat (0x10000 + (high.toNat - 0xD800) * 0x400 + (low.toNat - 0xDC00))

/-- Decodes onto characters already read, which stand in reverse. -/
def decodeOnto (seen : List Char) : List UInt16 → Option (List Char)
  | [] => some seen.reverse
  | [u] =>
    if isHigh u || isLow u then none else some (Char.ofNat u.toNat :: seen).reverse
  | u :: v :: us =>
    if isHigh u then
      if isLow v then decodeOnto (paired u v :: seen) us else none
    else if isLow u then none
    else decodeOnto (Char.ofNat u.toNat :: seen) (v :: us)

/-- The text of these units, unless a surrogate stands alone. -/
def decode (us : List UInt16) : Option String := (decodeOnto [] us).map String.ofList

end StorageBus.Text.Utf16
