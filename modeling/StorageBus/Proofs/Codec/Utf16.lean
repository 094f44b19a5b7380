import StorageBus.Text.Utf16

/-!
# UTF-16 read back

Decoding the units of a text gives the text. A character is a scalar value, so it is no surrogate:
below `10000` (hexadecimal) its one unit cannot be taken for half of a pair, and above it the two
units are a high and a low surrogate that determine it. No other units are decoded.

## Main results

* `decode_encode` — the units of a text decode to it.
* `eq_encode_of_decode` — what decodes to a text are its units.
-/
namespace StorageBus.Text.Utf16

theorem scalar_cases (c : Char) :
    c.toNat < 0xD800 ∨ (0xDFFF < c.toNat ∧ c.toNat < 0x110000) := c.valid

/-! ## One character -/

/-- A unit outside the surrogates stands for itself, whatever follows. -/
theorem decodeOnto_cons {u : UInt16} (high : isHigh u = false) (low : isLow u = false)
    (seen : List Char) (us : List UInt16) :
    decodeOnto seen (u :: us) = decodeOnto (Char.ofNat u.toNat :: seen) us := by
  cases us <;> simp [decodeOnto, high, low]

theorem decodeOnto_pair {u v : UInt16} (high : isHigh u = true) (low : isLow v = true)
    (seen : List Char) (us : List UInt16) :
    decodeOnto seen (u :: v :: us) = decodeOnto (paired u v :: seen) us := by
  simp [decodeOnto, high, low]

theorem isHigh_ofNat {n : Nat} (h : n < 0x10000) :
    isHigh (UInt16.ofNat n) = (decide (0xD800 ≤ n) && decide (n < 0xDC00)) := by
  simp [isHigh, UInt16.le_iff_toNat_le, UInt16.lt_iff_toNat_lt, Nat.mod_eq_of_lt h]

theorem isLow_ofNat {n : Nat} (h : n < 0x10000) :
    isLow (UInt16.ofNat n) = (decide (0xDC00 ≤ n) && decide (n < 0xE000)) := by
  simp [isLow, UInt16.le_iff_toNat_le, UInt16.lt_iff_toNat_lt, Nat.mod_eq_of_lt h]

theorem decodeOnto_units (c : Char) (seen : List Char) (us : List UInt16) :
    decodeOnto seen (units c ++ us) = decodeOnto (c :: seen) us := by
  have scalar := scalar_cases c
  unfold units
  split
  · next small =>
    have high : isHigh (UInt16.ofNat c.toNat) = false := by
      rw [isHigh_ofNat small]
      simp
      omega
    have low : isLow (UInt16.ofNat c.toNat) = false := by
      rw [isLow_ofNat small]
      simp
      omega
    have value : (UInt16.ofNat c.toNat).toNat = c.toNat := by
      simp only [UInt16.toNat_ofNat']
      omega
    rw [List.singleton_append, decodeOnto_cons high low, value, Char.ofNat_toNat]
  · next large =>
    -- the ten low bits of the offset go into the second unit, the others into the first
    have split := Nat.div_add_mod (c.toNat - 0x10000) 0x400
    have below := Nat.mod_lt (c.toNat - 0x10000) (show 0 < 0x400 by decide)
    have high : isHigh (UInt16.ofNat (0xD800 + (c.toNat - 0x10000) / 0x400)) = true := by
      rw [isHigh_ofNat (by omega)]
      simp
      omega
    have low : isLow (UInt16.ofNat (0xDC00 + (c.toNat - 0x10000) % 0x400)) = true := by
      rw [isLow_ofNat (by omega)]
      simp
      omega
    have value : paired (UInt16.ofNat (0xD800 + (c.toNat - 0x10000) / 0x400))
        (UInt16.ofNat (0xDC00 + (c.toNat - 0x10000) % 0x400)) = c := by
      have number : 0x10000 + (0xD800 + (c.toNat - 0x10000) / 0x400 - 0xD800) * 0x400 +
          (0xDC00 + (c.toNat - 0x10000) % 0x400 - 0xDC00) = c.toNat := by omega
      simp only [paired, UInt16.toNat_ofNat']
      rw [Nat.mod_eq_of_lt (by omega), Nat.mod_eq_of_lt (by omega), number, Char.ofNat_toNat]
    simp only [List.cons_append, List.nil_append]
    rw [decodeOnto_pair high low, value]

/-! ## Texts -/

theorem decodeOnto_flatMap_units (cs seen : List Char) :
    decodeOnto seen (cs.flatMap units) = some (seen.reverse ++ cs) := by
  induction cs generalizing seen with
  | nil => simp [decodeOnto]
  | cons c cs ih =>
    rw [List.flatMap_cons, decodeOnto_units, ih]
    simp

theorem decode_encode (s : String) : decode (encode s) = some s := by
  simp [decode, encode, decodeOnto_flatMap_units]

/-! ## No other units -/

theorem toNat_ofNat {n : Nat} (scalar : n.isValidChar) : (Char.ofNat n).toNat = n := by
  rw [Char.ofNat, dif_pos scalar]
  rfl

/-- A unit outside the surrogates is the one unit of its character. -/
theorem units_ofNat {u : UInt16} (high : isHigh u = false) (low : isLow u = false) :
    units (Char.ofNat u.toNat) = [u] := by
  have size := u.toNat_lt
  have scalar : u.toNat.isValidChar := by
    simp only [isHigh, isLow, UInt16.le_iff_toNat_le, UInt16.lt_iff_toNat_lt, Bool.and_eq_false_iff,
      decide_eq_false_iff_not, UInt16.reduceToNat] at high low
    grind
  rw [units, toNat_ofNat scalar, if_pos size, UInt16.ofNat_toNat]

/-- A high and a low surrogate are the two units of the character they stand for. -/
theorem units_paired {u v : UInt16} (high : isHigh u = true) (low : isLow v = true) :
    units (paired u v) = [u, v] := by
  simp only [isHigh, isLow, UInt16.le_iff_toNat_le, UInt16.lt_iff_toNat_lt, Bool.and_eq_true,
    decide_eq_true_eq, UInt16.reduceToNat] at high low
  generalize offset : (u.toNat - 0xD800) * 0x400 + (v.toNat - 0xDC00) = n
  have number : 0x10000 + (u.toNat - 0xD800) * 0x400 + (v.toNat - 0xDC00) = 0x10000 + n := by omega
  have value : (paired u v).toNat = 0x10000 + n := by
    have scalar : (0x10000 + n).isValidChar := by grind
    rw [paired, number, toNat_ofNat scalar]
  have first : 0xD800 + n / 0x400 = u.toNat := by omega
  have second : 0xDC00 + n % 0x400 = v.toNat := by omega
  rw [units, value, if_neg (by omega)]
  simp only [Nat.add_sub_cancel_left, first, second, UInt16.ofNat_toNat]

theorem eq_flatMap_units_of_decodeOnto {seen cs : List Char} {us : List UInt16}
    (h : decodeOnto seen us = some cs) :
    ∃ more, cs = seen.reverse ++ more ∧ us = more.flatMap units := by
  fun_induction decodeOnto seen us with
  | case1 seen => exact ⟨[], by simpa using h.symm, rfl⟩
  | case2 => cases h
  | case3 seen u alone =>
    simp only [Bool.or_eq_true, not_or, Bool.not_eq_true] at alone
    refine ⟨[Char.ofNat u.toNat], by simpa using h.symm, ?_⟩
    simp [units_ofNat alone.1 alone.2]
  | case4 seen u v us high low ih =>
    obtain ⟨more, rfl, rfl⟩ := ih h
    exact ⟨paired u v :: more, by simp, by simp [units_paired high low]⟩
  | case5 => cases h
  | case6 => cases h
  | case7 seen u v us high low ih =>
    obtain ⟨more, rfl, rest⟩ := ih h
    simp only [Bool.not_eq_true] at high low
    exact ⟨Char.ofNat u.toNat :: more, by simp, by simp [units_ofNat high low, rest]⟩

theorem eq_encode_of_decode {us : List UInt16} {s : String} (h : decode us = some s) :
    us = encode s := by
  obtain ⟨cs, decoded, rfl⟩ := Option.map_eq_some_iff.mp h
  obtain ⟨more, rfl, rfl⟩ := eq_flatMap_units_of_decodeOnto decoded
  simp [encode]

end StorageBus.Text.Utf16
