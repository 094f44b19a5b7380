import StorageBus.Bytes

/-!
# Varints

Numbers below `2 ^ 64` in groups of seven bits, lowest group first; every byte but the last has its
high bit set. Longer forms than needed are accepted, but no more than ten bytes, and nothing above
`2 ^ 64 - 1`.

## Main definitions

* `Varint.encode`, `Varint.decode` — a number as bytes, and the number at the start of bytes.
-/
namespace StorageBus.Message.Varint

def encode (n : Nat) : Bytes :=
  if n < 128 then [UInt8.ofNat n] else UInt8.ofNat (n % 128 + 128) :: encode (n / 128)
termination_by n
decreasing_by omega

/-- Decodes a number of at most `room` bytes, of which the last may be one at most. -/
def decodeWithin : Nat → Bytes → Option (Nat × Bytes)
  | 0, _ => none
  | _ + 1, [] => none
  | room + 1, b :: bs =>
    if b < 128 then
      if room = 0 && 1 < b then none else some (b.toNat, bs)
    else (decodeWithin room bs).map fun (high, rest) => (b.toNat - 128 + 128 * high, rest)

/-- The number at the start of `bs`, and the bytes after it. -/
def decode (bs : Bytes) : Option (Nat × Bytes) := decodeWithin 10 bs

theorem decodeWithin_length {room : Nat} {bs rest : Bytes} {n : Nat}
    (h : decodeWithin room bs = some (n, rest)) : rest.length < bs.length := by
  fun_induction decodeWithin room bs generalizing n rest with
  | case1 | case2 => simp at h
  | case3 => simp at h
  | case4 => simp_all
  | case5 room b bs _ ih =>
    simp only [Option.map_eq_some_iff, Prod.mk.injEq] at h
    obtain ⟨⟨high, after⟩, hd, -, rfl⟩ := h
    have := ih hd
    simp only [List.length_cons]
    omega

/-- Decoding takes at least one byte. -/
theorem decode_length {bs rest : Bytes} {n : Nat} (h : decode bs = some (n, rest)) :
    rest.length < bs.length := decodeWithin_length h

end StorageBus.Message.Varint
