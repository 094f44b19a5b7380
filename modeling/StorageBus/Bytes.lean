/-!
# Bytes and words

Byte strings, unsigned words of a given number of bytes with the least significant byte first, and
rounding up to the four-byte grid on which every item of a parcel starts.

## Main definitions

* `Word.encode`, `Word.value` — a word as bytes, and the number that bytes stand for.
* `roundUp`, `align` — the next multiple of four, and zero bytes up to it.
-/
namespace StorageBus

/-- A byte string. -/
abbrev Bytes := List UInt8

/-! ## Words -/

namespace Word

/-- The `n` lowest bytes of `v`, least significant first. -/
def encode : Nat → Nat → Bytes
  | 0, _ => []
  | n + 1, v => UInt8.ofNat v :: encode n (v / 256)

/-- The number whose bytes these are, least significant first. -/
def value : Bytes → Nat
  | [] => 0
  | b :: bs => b.toNat + 256 * value bs

/-- How many numbers have `n` bytes. -/
def range : Nat → Nat
  | 0 => 1
  | n + 1 => 256 * range n

@[simp] theorem length_encode (n v : Nat) : (encode n v).length = n := by
  induction n generalizing v <;> simp [encode, *]

theorem value_encode (n v : Nat) : value (encode n v) = v % range n := by
  induction n generalizing v with
  | zero => simp [encode, value, range, Nat.mod_one]
  | succ n ih => simp [encode, value, range, ih, Nat.mod_mul]

theorem value_lt (bs : Bytes) : value bs < range bs.length := by
  induction bs with
  | nil => simp [value, range]
  | cons b bs ih =>
    have hb := b.toNat_lt
    simp only [value, List.length_cons, range]
    omega

theorem encode_value (bs : Bytes) : encode bs.length (value bs) = bs := by
  induction bs with
  | nil => rfl
  | cons b bs ih =>
    have hb := b.toNat_lt
    have hrest : (b.toNat + 256 * value bs) / 256 = value bs := by omega
    simp only [List.length_cons, encode, value, hrest, ih]
    congr 1
    apply UInt8.toNat_inj.mp
    simp

end Word

/-! ## The four-byte grid -/

/-- The least multiple of four that is not below `n`. -/
def roundUp (n : Nat) : Nat := (n + 3) / 4 * 4

theorem le_roundUp (n : Nat) : n ≤ roundUp n := by unfold roundUp; omega
theorem roundUp_lt (n : Nat) : roundUp n < n + 4 := by unfold roundUp; omega
@[simp] theorem roundUp_mod_four (n : Nat) : roundUp n % 4 = 0 := by unfold roundUp; omega
theorem roundUp_eq_self {n : Nat} (h : n % 4 = 0) : roundUp n = n := by unfold roundUp; omega

/-- The bytes followed by as many zeros as lead to the next multiple of four. -/
def align (bs : Bytes) : Bytes := bs ++ List.replicate (roundUp bs.length - bs.length) 0

@[simp] theorem length_align (bs : Bytes) : (align bs).length = roundUp bs.length := by
  have := le_roundUp bs.length
  simp only [align, List.length_append, List.length_replicate]
  omega

/-- The first `n` bytes and what follows them, if there are that many. -/
def splitBytes? (n : Nat) (bs : Bytes) : Option (Bytes × Bytes) :=
  let taken := bs.take n
  if taken.length = n then some (taken, bs.drop n) else none

theorem splitBytes?_eq_some {n : Nat} {bs front rest : Bytes}
    (h : splitBytes? n bs = some (front, rest)) : bs = front ++ rest ∧ front.length = n := by
  simp only [splitBytes?] at h
  split at h
  · simp only [Option.some.injEq, Prod.mk.injEq] at h
    obtain ⟨rfl, rfl⟩ := h
    simp_all
  · simp at h

@[simp] theorem splitBytes?_append (front rest : Bytes) :
    splitBytes? front.length (front ++ rest) = some (front, rest) := by
  simp [splitBytes?]

theorem splitBytes?_eq_none_iff {n : Nat} {bs : Bytes} :
    splitBytes? n bs = none ↔ bs.length < n := by
  simp only [splitBytes?, List.length_take, ite_eq_right_iff, reduceCtorEq, imp_false]
  omega

end StorageBus
