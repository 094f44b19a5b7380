import StorageBus.Proofs.Codec.Wire

/-!
# Unknown fields

The fields that a reader need not know in order to find their end, said without the reader: a key,
and behind it a number, so many bytes, bytes behind their length, or a group of fields that a key
with the same tag closes. Numbers may be spelled with more bytes than they need. Reading a message
passes over such fields, however they are nested, as long as no field lies in too many groups.

## Main definitions

* `Varint.Spells` — bytes that stand for a number.
* `Scalar`, `Fields` — the value of a field, and fields one behind the other.
* `Schema.Undeclared` — the tags that a schema leaves free.

## Main results

* `Fields.closeGroup_eq` — the fields of a group are passed over up to its end.
* `Fields.decodeOnto_eq` — fields with free tags do not matter to a message.
-/
namespace StorageBus.Message

/-! ## Numbers -/

namespace Varint

/-- Groups of seven bits that make up the number, in as few bytes as there can be or in more. -/
structure Spells (n : Nat) (bs : Bytes) : Prop where
  value_eq : value bs = n
  small : n < 1 <<< 64
  short : bs.length ≤ 10
  /-- Every byte but the last says that more follow. -/
  marked : ∀ b ∈ bs.dropLast, 128 ≤ b
  closed : ∃ last ∈ bs.getLast?, last < 128

instance (n : Nat) (bs : Bytes) : Decidable (Spells n bs) :=
  decidable_of_iff (value bs = n ∧ n < 1 <<< 64 ∧ bs.length ≤ 10 ∧
      bs.dropLast.all (128 ≤ ·) = true ∧ bs.getLast?.any (· < 128) = true) <| by
    simp only [List.all_eq_true, Option.any_eq_true, decide_eq_true_iff]
    exact ⟨fun ⟨value_eq, small, short, marked, closed⟩ => ⟨value_eq, small, short, marked, closed⟩,
      fun h => ⟨h.value_eq, h.small, h.short, h.marked, h.closed⟩⟩

theorem decodeWithin_of_marked {room : Nat} {bs : Bytes} (short : bs.length ≤ room + 1)
    (small : value bs < bound room) (marked : ∀ b ∈ bs.dropLast, 128 ≤ b)
    (closed : ∃ last ∈ bs.getLast?, last < 128) (rest : Bytes) :
    decodeWithin (room + 1) (bs ++ rest) = some (value bs, rest) := by
  induction bs generalizing room with
  | nil =>
    obtain ⟨last, isLast, -⟩ := closed
    cases isLast
  | cons b bs ih =>
    have byte := b.toNat_lt
    cases bs with
    | nil =>
      obtain ⟨last, isLast, low⟩ := closed
      obtain rfl : b = last := by simpa using isLast
      have number : value [b] = b.toNat := by
        rw [UInt8.lt_iff_toNat_lt] at low
        exact Nat.mod_eq_of_lt low
      -- in the last byte that there is room for, the number has at most one bit
      have fits : ¬ (room = 0 ∧ 1 < b) := by
        rintro ⟨rfl, large⟩
        rw [number] at small
        rw [UInt8.lt_iff_toNat_lt] at large
        exact absurd small (Nat.not_lt.mpr large)
      rw [number, List.singleton_append, decodeWithin, if_pos low]
      simpa using fits
    | cons c bs =>
      have high : 128 ≤ b := marked b (by simp)
      have more : ¬ b < 128 := by
        rw [UInt8.lt_iff_toNat_lt]
        exact Nat.not_lt.mpr high
      cases room with
      | zero => simp at short
      | succ room =>
        have part : b.toNat % 128 + 128 * value (c :: bs) < 128 * bound room := small
        have short : (c :: bs).length ≤ room + 1 := by simpa using short
        have small : value (c :: bs) < bound room := by omega
        have marked (d) (mem : d ∈ (c :: bs).dropLast) : 128 ≤ d := marked d (by simp [mem])
        have rest_eq := ih short small marked (by simpa using closed)
        have number : b.toNat - 128 = b.toNat % 128 := by
          rw [UInt8.le_iff_toNat_le] at high
          have : 128 ≤ b.toNat := high
          omega
        rw [List.cons_append, decodeWithin, if_neg more, rest_eq, Option.map_some, number]
        rfl

theorem Spells.decode_eq {n : Nat} {bs : Bytes} (h : Spells n bs) (rest : Bytes) :
    decode (bs ++ rest) = some (n, rest) := by
  have small : value bs < bound 9 := h.value_eq.symm ▸ h.small
  rw [decode, decodeWithin_of_marked h.short small h.marked h.closed, h.value_eq]

end Varint

theorem readVarint_of_spells {n : Nat} {bs : Bytes} (h : Varint.Spells n bs) (rest : Bytes) :
    readVarint (bs ++ rest) = .ok (n, rest) := by
  rw [readVarint, h.decode_eq]

/-- A tag above zero and a wire type, spelled as a number of 32 bits. -/
structure NamesField (tag : Nat) (wire : WireType) (bs : Bytes) : Prop where
  positive : 0 < tag
  small : tag < 1 <<< 29
  spelled : Varint.Spells (tag * 8 + wire.code) bs

instance (tag : Nat) (wire : WireType) (bs : Bytes) : Decidable (NamesField tag wire bs) :=
  decidable_of_iff (0 < tag ∧ tag < 1 <<< 29 ∧ Varint.Spells (tag * 8 + wire.code) bs)
    ⟨fun ⟨positive, small, spelled⟩ => ⟨positive, small, spelled⟩,
      fun h => ⟨h.positive, h.small, h.spelled⟩⟩

theorem NamesField.readKey_eq {tag : Nat} {wire : WireType} {bs : Bytes}
    (h : NamesField tag wire bs) (rest : Bytes) : readKey (bs ++ rest) = .ok (tag, wire, rest) := by
  have code : wire.code < 6 := by cases wire <;> decide
  have inWord : ¬ 1 <<< 32 ≤ tag * 8 + wire.code := by
    have := h.small
    simp only [Nat.shiftLeft_eq] at *
    omega
  have low : (tag * 8 + wire.code) % 8 = wire.code := by omega
  have high : (tag * 8 + wire.code) / 8 = tag := by omega
  have positive := h.positive
  simp only [readKey, readVarint_of_spells h.spelled, low, high, WireType.ofCode?_code]
  rw [if_neg inWord, if_neg (by omega)]

/-! ## Fields -/

/-- The value of a field that is no group. -/
inductive Scalar : WireType → Bytes → Prop where
  | varint {n : Nat} {bs : Bytes} (spelled : Varint.Spells n bs) : Scalar .varint bs
  | fixed64 {bs : Bytes} (eight : bs.length = 8) : Scalar .fixed64 bs
  | fixed32 {bs : Bytes} (four : bs.length = 4) : Scalar .fixed32 bs
  | delimited {length bs : Bytes} (counted : Varint.Spells bs.length length) :
    Scalar .lengthDelimited (length ++ bs)

/-- Fields one behind the other, with tags that are free. Groups may have any fields in them. No
field lies in so many groups as there are levels, or in more. -/
inductive Fields : (Nat → Prop) → Nat → Bytes → Prop where
  | nil (free : Nat → Prop) (levels : Nat) : Fields free levels []
  | scalar {free : Nat → Prop} {levels tag : Nat} {wire : WireType} {key value rest : Bytes}
    (named : NamesField tag wire key) (isFree : free tag) (hasForm : Scalar wire value)
    (more : Fields free (levels + 1) rest) : Fields free (levels + 1) (key ++ (value ++ rest))
  | group {free : Nat → Prop} {levels tag : Nat} {start inside stop rest : Bytes}
    (opened : NamesField tag .startGroup start) (isFree : free tag)
    (inner : Fields (fun _ => True) levels inside) (closed : NamesField tag .endGroup stop)
    (more : Fields free (levels + 1) rest) :
    Fields free (levels + 1) (start ++ (inside ++ (stop ++ rest)))

/-! ## Passing over fields -/

theorem Scalar.ne_endGroup {wire : WireType} {bs : Bytes} (h : Scalar wire bs) :
    wire ≠ .endGroup := by
  cases h <;> decide

theorem Scalar.skip_eq {wire : WireType} {bs : Bytes} (h : Scalar wire bs) (depth tag : Nat)
    (rest : Bytes) : ∃ le, skip (depth + 1) tag wire (bs ++ rest) = .ok ⟨rest, le⟩ := by
  have fixed (bs : Bytes) : readBytes bs.length (bs ++ rest) = .ok (bs, rest) := by
    rw [readBytes, splitBytes?_append]
  refine ⟨by simp, ?_⟩
  cases h with
  | varint spelled =>
    have read := readVarint_of_spells spelled rest
    simp only [skip]
    split
    · next e h => cases read.symm.trans h
    · next h => cases read.symm.trans h; rfl
  | fixed64 eight =>
    have read := eight ▸ fixed bs
    simp only [skip]
    split
    · next e h => cases read.symm.trans h
    · next h => cases read.symm.trans h; rfl
  | fixed32 four =>
    have read := four ▸ fixed bs
    simp only [skip]
    split
    · next e h => cases read.symm.trans h
    · next h => cases read.symm.trans h; rfl
  | @delimited length bs counted =>
    have read : readDelimited (length ++ bs ++ rest) = .ok (bs, rest) := by
      rw [List.append_assoc, readDelimited, readVarint_of_spells counted]
      exact fixed bs
    simp only [skip]
    split
    · next e h => cases read.symm.trans h
    · next h => cases read.symm.trans h; rfl

section

variable {inner : Nat → WireType → (bs : Bytes) → Except Defect (Within bs.length)}
  {tag n : Nat} {bs : Bytes}

theorem closeGroup_of_end {rest : Bytes} (read : readKey bs = .ok (tag, .endGroup, rest))
    (bound : bs.length ≤ n) : ∃ le, closeGroup inner tag n bs bound = .ok ⟨rest, le⟩ := by
  have shorter := readKey_length read
  refine ⟨by omega, ?_⟩
  rw [closeGroup]
  split
  · next e h => cases read.symm.trans h
  · next t wire after h =>
    cases read.symm.trans h
    rw [if_pos rfl, if_pos rfl]

/-- A field of a group is passed over. -/
theorem closeGroup_of_field {t : Nat} {wire : WireType} {mid after : Bytes}
    (read : readKey bs = .ok (t, wire, mid)) (goesOn : wire ≠ .endGroup)
    {le : after.length ≤ mid.length} (skipped : inner t wire mid = .ok ⟨after, le⟩)
    (bound : bs.length ≤ n) :
    ∃ bound', closeGroup inner tag n bs bound = closeGroup inner tag n after bound' := by
  have shorter := readKey_length read
  refine ⟨by omega, ?_⟩
  rw [closeGroup]
  split
  · next e h => cases read.symm.trans h
  · next t wire mid' h =>
    cases read.symm.trans h
    rw [if_neg goesOn]
    split
    · next e h => cases skipped.symm.trans h
    · next after' left h =>
      cases skipped.symm.trans h
      rfl

end

/-- The fields of a group are passed over, and the key that ends it. -/
theorem Fields.closeGroup_eq {free : Nat → Prop} {levels : Nat} {inside : Bytes}
    (fields : Fields free levels inside) {tag : Nat} {stop : Bytes}
    (closed : NamesField tag .endGroup stop) (rest : Bytes) {n : Nat}
    (bound : (inside ++ (stop ++ rest)).length ≤ n) :
    ∃ le, closeGroup (skip levels) tag n (inside ++ (stop ++ rest)) bound = .ok ⟨rest, le⟩ := by
  induction fields generalizing tag stop rest n with
  | nil free levels => exact closeGroup_of_end (closed.readKey_eq rest) bound
  | @scalar free levels t wire key value fields named isFree hasForm more ih =>
    have read : readKey (key ++ (value ++ fields) ++ (stop ++ rest)) =
        .ok (t, wire, value ++ (fields ++ (stop ++ rest))) := by
      rw [List.append_assoc, List.append_assoc]
      exact named.readKey_eq _
    obtain ⟨le, skipped⟩ := hasForm.skip_eq levels t (fields ++ (stop ++ rest))
    obtain ⟨bound', next⟩ := closeGroup_of_field read hasForm.ne_endGroup skipped bound
    rw [next]
    exact ih closed rest bound'
  | @group free levels t start inside stop' fields opened isFree inner closed' more ihInner ih =>
    have read : readKey (start ++ (inside ++ (stop' ++ fields)) ++ (stop ++ rest)) =
        .ok (t, .startGroup, inside ++ (stop' ++ (fields ++ (stop ++ rest)))) := by
      simp only [List.append_assoc]
      exact opened.readKey_eq _
    obtain ⟨le, skipped⟩ : ∃ le, skip (levels + 1) t .startGroup
        (inside ++ (stop' ++ (fields ++ (stop ++ rest)))) = .ok ⟨fields ++ (stop ++ rest), le⟩ :=
      ihInner closed' (fields ++ (stop ++ rest)) (Nat.le_refl _)
    obtain ⟨bound', next⟩ := closeGroup_of_field read (by decide) skipped bound
    rw [next]
    exact ih closed rest bound'

/-- A group is passed over. -/
theorem Fields.skip_eq {free : Nat → Prop} {levels tag : Nat} {inside stop : Bytes}
    (fields : Fields free levels inside) (closed : NamesField tag .endGroup stop) (rest : Bytes) :
    ∃ le, skip (levels + 1) tag .startGroup (inside ++ (stop ++ rest)) = .ok ⟨rest, le⟩ :=
  fields.closeGroup_eq closed rest (Nat.le_refl _)

/-! ## Messages -/

namespace Schema

variable {α : Type} {s : Schema α}

/-- A tag that the schema leaves free. -/
def Undeclared (s : Schema α) (tag : Nat) : Prop := ∀ f ∈ s.fields, f.tag ≠ tag

theorem field?_of_undeclared {tag : Nat} (free : s.Undeclared tag) : s.field? tag = none := by
  rw [field?, List.find?_eq_none]
  intro f mem
  simpa using free f mem

/-- A field that is not declared is passed over. -/
theorem decodeOnto_of_undeclared {tag : Nat} {wire : WireType} {bs mid after : Bytes} {target : α}
    (read : readKey bs = .ok (tag, wire, mid)) (free : s.Undeclared tag)
    {le : after.length ≤ mid.length} (skipped : skip maxDepth tag wire mid = .ok ⟨after, le⟩) :
    s.decodeOnto target bs = s.decodeOnto target after := by
  have longer := readKey_length read
  have some : bs ≠ [] := by
    rintro rfl
    simp at longer
  rw [decodeOnto, if_neg some]
  split
  · next e h => cases read.symm.trans h
  · next t wire mid' h =>
    cases read.symm.trans h
    rw [field?_of_undeclared free]
    simp only
    split
    · next e h => cases skipped.symm.trans h
    · next after' left h =>
      cases skipped.symm.trans h
      rfl

end Schema

/-- Fields with tags that the schema leaves free do not matter. -/
theorem Fields.decodeOnto_eq {α : Type} {s : Schema α} {free : Nat → Prop} {levels : Nat}
    {extra : Bytes} (fields : Fields free levels extra) (deep : levels = maxDepth)
    (undeclared : ∀ tag, free tag → s.Undeclared tag) (target : α) (rest : Bytes) :
    s.decodeOnto target (extra ++ rest) = s.decodeOnto target rest := by
  induction fields with
  | nil free levels => rfl
  | @scalar free levels tag wire key value more named isFree hasForm _ ih =>
    have read : readKey (key ++ (value ++ more) ++ rest) =
        .ok (tag, wire, value ++ (more ++ rest)) := by
      simp only [List.append_assoc]
      exact named.readKey_eq _
    obtain ⟨le, skipped⟩ := hasForm.skip_eq levels tag (more ++ rest)
    rw [deep] at skipped
    rw [Schema.decodeOnto_of_undeclared read (undeclared tag isFree) skipped]
    exact ih deep undeclared
  | @group free levels tag start inside stop more opened isFree inner closed _ _ ih =>
    have read : readKey (start ++ (inside ++ (stop ++ more)) ++ rest) =
        .ok (tag, .startGroup, inside ++ (stop ++ (more ++ rest))) := by
      simp only [List.append_assoc]
      exact opened.readKey_eq _
    obtain ⟨le, skipped⟩ := inner.skip_eq closed (more ++ rest)
    rw [deep] at skipped
    rw [Schema.decodeOnto_of_undeclared read (undeclared tag isFree) skipped]
    exact ih deep undeclared

end StorageBus.Message
