import StorageBus.Text.Hex

/-!
# Reading hexadecimal digits

The digits written for a number read back as the number, modulo the power of sixteen that their
count gives.

## Main definitions

* `Hex.value` — the number that digits stand for, of either spelling.
* `HexCase.Spells` — the characters that are digits of a spelling.

## Main results

* `Hex.value_fixed` — what the digits of a number in a given width read as.
* `Hex.fixed_inj` — two numbers of that width with the same digits are one.
* `Hex.spells_of_mem_fixed`, `HexCase.Spells.ascii` — each character written is a digit, and those
  are in ASCII.
-/
namespace StorageBus.Text

/-- The characters that stand for digits. -/
def HexCase.Spells (c : HexCase) (ch : Char) : Prop :=
  ('0' ≤ ch ∧ ch ≤ '9') ∨
    match c with
    | .lower => 'a' ≤ ch ∧ ch ≤ 'f'
    | .upper => 'A' ≤ ch ∧ ch ≤ 'F'

instance (c : HexCase) (ch : Char) : Decidable (c.Spells ch) :=
  match c with
  | .lower => inferInstanceAs (Decidable (_ ∨ ('a' ≤ ch ∧ ch ≤ 'f')))
  | .upper => inferInstanceAs (Decidable (_ ∨ ('A' ≤ ch ∧ ch ≤ 'F')))

theorem HexCase.Spells.ascii {c : HexCase} {ch : Char} (spells : c.Spells ch) : ch.toNat < 128 := by
  have below (top : Char) (le : ch ≤ top) (small : top.toNat < 128) : ch.toNat < 128 :=
    Nat.lt_of_le_of_lt (UInt32.le_iff_toNat_le.mp le) small
  rcases spells with ⟨-, le⟩ | letter
  · exact below '9' le (by decide)
  · cases c with
    | lower => exact below 'f' letter.2 (by decide)
    | upper => exact below 'F' letter.2 (by decide)

namespace Hex

/-- The digit that a character stands for, of either spelling. -/
def digitValue (ch : Char) : Nat :=
  if ch < 'A' then ch.toNat - '0'.toNat
  else if ch < 'a' then ch.toNat - 'A'.toNat + 10
  else ch.toNat - 'a'.toNat + 10

/-- The number that digits stand for, the most significant one first. -/
def value (digits : List Char) : Nat := digits.foldl (fun n ch => 16 * n + digitValue ch) 0

theorem value_append_singleton (digits : List Char) (ch : Char) :
    value (digits ++ [ch]) = 16 * value digits + digitValue ch := by
  rw [value, List.foldl_append]
  rfl

theorem digitValue_digit (c : HexCase) {d : Nat} (small : d < 16) : digitValue (digit c d) = d := by
  have each : ∀ d < 16, digitValue (digit c d) = d := by
    cases c <;> decide
  exact each d small

theorem spells_digit (c : HexCase) {d : Nat} (small : d < 16) : c.Spells (digit c d) := by
  have each : ∀ d < 16, c.Spells (digit c d) := by
    cases c <;> decide
  exact each d small

theorem spells_of_mem_fixed {c : HexCase} {width n : Nat} {ch : Char}
    (mem : ch ∈ fixed c width n) : c.Spells ch := by
  induction width generalizing n with
  | zero => cases mem
  | succ width ih =>
    rcases List.mem_append.mp mem with before | last
    · exact ih before
    · rw [List.mem_singleton.mp last]
      exact spells_digit c (Nat.mod_lt n (by decide))

/-- The digits of a number read back as the number, as far as there is room for it. -/
theorem value_fixed (c : HexCase) (width n : Nat) :
    value (fixed c width n) = n % (1 <<< (4 * width)) := by
  induction width generalizing n with
  | zero => exact (Nat.mod_one n).symm
  | succ width ih =>
    have room : 1 <<< (4 * (width + 1)) = 16 * 1 <<< (4 * width) := by
      rw [Nat.one_shiftLeft, Nat.one_shiftLeft, Nat.mul_succ, Nat.pow_add, Nat.mul_comm]
    calc value (fixed c (width + 1) n)
        = 16 * (n / 16 % 1 <<< (4 * width)) + n % 16 := by
          rw [fixed, value_append_singleton, ih, digitValue_digit c (Nat.mod_lt n (by decide))]
      _ = n % (16 * 1 <<< (4 * width)) := by
          rw [Nat.mod_mul, Nat.add_comm]
      _ = n % 1 <<< (4 * (width + 1)) := by rw [room]

theorem fixed_inj {c : HexCase} {width n k : Nat} (small : n < 1 <<< (4 * width))
    (small' : k < 1 <<< (4 * width)) : fixed c width n = fixed c width k ↔ n = k := by
  constructor
  · intro same
    have values := congrArg value same
    rwa [value_fixed, value_fixed, Nat.mod_eq_of_lt small, Nat.mod_eq_of_lt small'] at values
  · rintro rfl
    rfl

end Hex

end StorageBus.Text
