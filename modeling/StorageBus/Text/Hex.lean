/-!
# Hexadecimal digits

A number in base sixteen, most significant digit first, with zeros in front up to a given width.
-/
namespace StorageBus.Text

/-- The two spellings of the digits above nine. -/
inductive HexCase where
  | lower
  | upper
deriving DecidableEq, Repr

namespace Hex

/-- The character for a digit below sixteen. -/
def digit (c : HexCase) (d : Nat) : Char :=
  if d < 10 then Char.ofNat ('0'.toNat + d)
  else Char.ofNat ((match c with | .lower => 'a'.toNat | .upper => 'A'.toNat) + (d - 10))

/-- The `width` lowest digits of `n`. -/
def fixed (c : HexCase) : Nat → Nat → List Char
  | 0, _ => []
  | width + 1, n => fixed c width (n / 16) ++ [digit c (n % 16)]

/-- How many digits `n` has; zero has one. -/
def width (n : Nat) : Nat := if n < 16 then 1 else width (n / 16) + 1
termination_by n
decreasing_by omega

/-- All digits of `n`, with no zero in front. -/
def minimal (c : HexCase) (n : Nat) : List Char := fixed c (width n) n

@[simp] theorem length_fixed (c : HexCase) (width n : Nat) : (fixed c width n).length = width := by
  induction width generalizing n <;> simp [fixed, *]

end Hex

end StorageBus.Text
