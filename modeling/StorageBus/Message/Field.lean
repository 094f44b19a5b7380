import StorageBus.Message.Error
import StorageBus.Message.Varint

/-!
# Fields on the wire

A message is a sequence of fields. Each starts with a key, a varint that holds the field's tag and
its wire type. A reader that does not know a tag can still find the end of the field: fixed widths,
a length in front, or a group closed by a key with the same tag.

## Main definitions

* `key`, `readKey` — a field's key, written and read.
* `skip` — the bytes after a field of an unknown tag.
-/
namespace StorageBus.Message

/-- Bytes of which no more than `n` are left. -/
abbrev Within (n : Nat) := { bs : Bytes // bs.length ≤ n }

/-! ## Keys -/

def key (tag : Nat) (wire : WireType) : Bytes := Varint.encode (tag * 8 + wire.code)

def readVarint (bs : Bytes) : Except Defect (Nat × Bytes) :=
  match Varint.decode bs with
  | some read => .ok read
  | none => .error .badVarint

/-- A key has at most 32 bits, a known wire type and a tag above zero, looked at in this order. -/
def readKey (bs : Bytes) : Except Defect (Nat × WireType × Bytes) :=
  match readVarint bs with
  | .error e => .error e
  | .ok (k, rest) =>
    if 1 <<< 32 ≤ k then .error (.keyTooLarge k)
    else match WireType.ofCode? (k % 8) with
      | none => .error (.unknownWireType (k % 8))
      | some wire => if k / 8 = 0 then .error .tagZero else .ok (k / 8, wire, rest)

theorem readVarint_length {bs rest : Bytes} {n : Nat} (h : readVarint bs = .ok (n, rest)) :
    rest.length < bs.length := by
  unfold readVarint at h
  split at h
  · next read hread =>
    simp only [Except.ok.injEq] at h
    subst h
    exact Varint.decode_length hread
  · simp at h

theorem readKey_length {bs rest : Bytes} {tag : Nat} {wire : WireType}
    (h : readKey bs = .ok (tag, wire, rest)) : rest.length < bs.length := by
  unfold readKey at h
  split at h
  · simp at h
  · next k after hread =>
    have := readVarint_length hread
    split at h
    · simp at h
    · split at h
      · simp at h
      · split at h
        · simp at h
        · simp only [Except.ok.injEq, Prod.mk.injEq] at h
          obtain ⟨-, -, rfl⟩ := h
          exact this

/-! ## Values -/

/-- The first `n` bytes and what follows. -/
def readBytes (n : Nat) (bs : Bytes) : Except Defect (Bytes × Bytes) :=
  match splitBytes? n bs with
  | some split => .ok split
  | none => .error .underflow

/-- A length, then as many bytes. -/
def readDelimited (bs : Bytes) : Except Defect (Bytes × Bytes) :=
  match readVarint bs with
  | .error e => .error e
  | .ok (n, rest) => readBytes n rest

theorem readBytes_length {n : Nat} {bs front rest : Bytes}
    (h : readBytes n bs = .ok (front, rest)) :
    rest.length ≤ bs.length := by
  unfold readBytes at h
  split at h
  · next split hsplit =>
    simp only [Except.ok.injEq] at h
    subst h
    have := (splitBytes?_eq_some hsplit).1
    simp [this]
  · simp at h

theorem readDelimited_length {bs front rest : Bytes} (h : readDelimited bs = .ok (front, rest)) :
    rest.length ≤ bs.length := by
  unfold readDelimited at h
  split at h
  · simp at h
  · next n after hread =>
    have := readVarint_length hread
    have := readBytes_length h
    omega

/-! ## Unknown fields -/

/-- How deep unknown groups may nest. -/
def maxDepth : Nat := 100

/-- Reads fields up to the key that ends the group `tag`; `inner` skips a field within it. -/
def closeGroup (inner : Nat → WireType → (bs : Bytes) → Except Defect (Within bs.length))
    (tag n : Nat) (bs : Bytes) (bound : bs.length ≤ n) : Except Defect (Within n) :=
  match hkey : readKey bs with
  | .error e => .error e
  | .ok (t, wire, rest) =>
    have shorter := readKey_length hkey
    if wire = .endGroup then
      if t = tag then .ok ⟨rest, by omega⟩ else .error .strayEndGroup
    else match inner t wire rest with
      | .error e => .error e
      | .ok ⟨after, left⟩ => closeGroup inner tag n after (by omega)
termination_by bs.length

/-- The bytes after the value of a field with an unknown tag. `depth` counts how many groups may
still be entered, the field itself included. -/
def skip : Nat → Nat → WireType → (bs : Bytes) → Except Defect (Within bs.length)
  | 0, _, _, _ => .error .tooDeep
  | depth + 1, tag, wire, bs =>
    match wire with
    | .varint =>
      match h : readVarint bs with
      | .error e => .error e
      | .ok (_, rest) => .ok ⟨rest, Nat.le_of_lt (readVarint_length h)⟩
    | .fixed64 =>
      match h : readBytes 8 bs with
      | .error e => .error e
      | .ok (_, rest) => .ok ⟨rest, readBytes_length h⟩
    | .fixed32 =>
      match h : readBytes 4 bs with
      | .error e => .error e
      | .ok (_, rest) => .ok ⟨rest, readBytes_length h⟩
    | .lengthDelimited =>
      match h : readDelimited bs with
      | .error e => .error e
      | .ok (_, rest) => .ok ⟨rest, readDelimited_length h⟩
    | .startGroup => closeGroup (skip depth) tag bs.length bs (Nat.le_refl _)
    | .endGroup => .error .strayEndGroup

end StorageBus.Message
