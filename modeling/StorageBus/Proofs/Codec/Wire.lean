import Mathlib.Data.List.Forall2
import StorageBus.Proofs.Codec.Message

/-!
# Messages on the wire

What the bytes of a record have to be, said without the functions that write them: varints in as
few bytes as there can be, signed numbers extended to 64 bits, texts in UTF-8 behind their length,
fields behind their keys by ascending tags, and no field that has its default value. These rules
leave no choice, and what is written follows them.

## Main definitions

* `Varint.Shortest` — the varint of a number.
* `Value.OnWire`, `Field.OnWire`, `Schema.OnWire` — the bytes of values, fields and records.

## Main results

* `Schema.onWire_iff` — the bytes of a record are those that are written.
-/
namespace StorageBus.Message

/-! ## Varints -/

namespace Varint

/-- The number in groups of seven bits, lowest group first. -/
def value : Bytes → Nat
  | [] => 0
  | b :: bs => b.toNat % 128 + 128 * value bs

/-- The varint of a number in as few bytes as there can be. -/
structure Shortest (n : Nat) (bs : Bytes) : Prop where
  value_eq : value bs = n
  /-- Every byte but the last says that more follow. -/
  marked : ∀ b ∈ bs.dropLast, 128 ≤ b
  /-- The last byte says that none follow, and it is needed unless it stands alone. -/
  closed : ∃ last ∈ bs.getLast?, last < 128 ∧ (last = 0 → bs.length = 1)

theorem Shortest.encode (n : Nat) : Shortest n (encode n) := by
  fun_induction Varint.encode n with
  | case1 n small =>
    have byte : (UInt8.ofNat n).toNat = n := by simp; omega
    refine ⟨?_, by simp, UInt8.ofNat n, rfl, ?_, fun _ => rfl⟩
    · simp only [value, byte]
      omega
    · rw [UInt8.lt_iff_toNat_lt, byte]
      exact small
  | case2 n large ih =>
    obtain ⟨value_eq, marked, last, isLast, low, alone⟩ := ih
    have byte : (UInt8.ofNat (n % 128 + 128)).toNat = n % 128 + 128 := by simp; omega
    obtain ⟨c, bs, written⟩ := List.exists_cons_of_ne_nil (encode_ne_nil (n / 128))
    rw [written] at value_eq marked isLast alone ⊢
    refine ⟨?_, ?_, last, ?_, low, ?_⟩
    · rw [value, value_eq, byte]
      omega
    · intro b mem
      rw [List.dropLast_cons_cons, List.mem_cons] at mem
      rcases mem with rfl | mem
      · rw [UInt8.le_iff_toNat_le, byte]
        exact Nat.le_add_left 128 _
      · exact marked b mem
    · rw [List.getLast?_cons_cons]
      exact isLast
    · intro zero
      subst zero
      obtain rfl : bs = [] := by simpa using alone rfl
      obtain rfl : c = 0 := by simpa using isLast
      -- The higher groups would make up zero, but the number has higher groups.
      have none : 0 = n / 128 := value_eq
      omega

theorem Shortest.eq_encode {n : Nat} {bs : Bytes} (h : Shortest n bs) : bs = Varint.encode n := by
  induction bs generalizing n with
  | nil =>
    obtain ⟨last, isLast, -⟩ := h.closed
    cases isLast
  | cons b bs ih =>
    obtain ⟨value_eq, marked, last, isLast, low, alone⟩ := h
    rw [value] at value_eq
    cases bs with
    | nil =>
      obtain rfl : b = last := by simpa using isLast
      rw [UInt8.lt_iff_toNat_lt] at low
      have number : b.toNat = n := by
        simp only [value] at value_eq
        have : b.toNat < 128 := low
        omega
      rw [Varint.encode, if_pos (by rw [← number]; exact low), ← number, UInt8.ofNat_toNat]
    | cons c bs =>
      have high : 128 ≤ b.toNat := marked b (by simp)
      have below := b.toNat_lt
      have rest : Shortest (n / 128) (c :: bs) := by
        refine ⟨by omega, fun d mem => marked d (by simp [mem]), last, ?_, low, fun zero => ?_⟩
        · rwa [List.getLast?_cons_cons] at isLast
        · simpa using alone zero
      have written := ih rest
      have large : ¬ n < 128 := by
        intro small
        rw [Nat.div_eq_of_lt small, Varint.encode, if_pos (by decide)] at written
        obtain ⟨rfl, rfl⟩ := List.cons.inj written
        have zero : last = 0 := by simpa using isLast.symm
        simpa using alone zero
      rw [Varint.encode, if_neg large, ← written]
      congr 1
      apply UInt8.toNat_inj.mp
      simp
      omega

end Varint

/-! ## Values -/

theorem encodeInt_int64 (v : Int64) : encodeInt v.toInt = Varint.encode v.toUInt64.toNat := by
  have number : (BitVec.ofInt 64 v.toBitVec.toInt).toNat = v.toUInt64.toNat := by
    rw [BitVec.ofInt_toInt]
    rfl
  rw [BitVec.toNat_ofInt] at number
  rw [← number]
  rfl

theorem encodeInt_int32 (v : Int32) :
    encodeInt v.toInt = Varint.encode v.toInt64.toUInt64.toNat := by
  rw [← encodeInt_int64, Int32.toInt_toInt64]

theorem encodeInt_uint32 (v : UInt32) : encodeInt v.toNat = Varint.encode v.toNat := by
  have small : v.toNat < 1 <<< 64 := Nat.lt_trans v.toNat_lt (by decide)
  rw [encodeInt, Int.ofNat_mod_ofNat, Nat.mod_eq_of_lt small, Int.toNat_natCast]

namespace Value

/-- What a field holds if nothing was put into it. -/
def IsDefault : Value → Prop
  | text v => v = ""
  | int32 v => v = 0
  | uint32 v => v = 0
  | int64 v => v = 0

/-- The bytes that stand for a value behind its key. Signed numbers are extended to 64 bits. -/
inductive OnWire : Value → WireType → Bytes → Prop where
  | text {v : String} {length : Bytes} (counted : Varint.Shortest v.utf8ByteSize length) :
    OnWire (text v) .lengthDelimited (length ++ v.toUTF8.data.toList)
  | int32 {v : Int32} {bs : Bytes} (number : Varint.Shortest v.toInt64.toUInt64.toNat bs) :
    OnWire (int32 v) .varint bs
  | uint32 {v : UInt32} {bs : Bytes} (number : Varint.Shortest v.toNat bs) :
    OnWire (uint32 v) .varint bs
  | int64 {v : Int64} {bs : Bytes} (number : Varint.Shortest v.toUInt64.toNat bs) :
    OnWire (int64 v) .varint bs

def wire : Value → WireType
  | text _ => .lengthDelimited
  | int32 _ | uint32 _ | int64 _ => .varint

def encode : Value → Bytes
  | text v => Varint.encode v.toUTF8.data.toList.length ++ v.toUTF8.data.toList
  | int32 v => encodeInt v.toInt
  | uint32 v => encodeInt v.toNat
  | int64 v => encodeInt v.toInt

theorem onWire_encode (v : Value) : v.OnWire v.wire v.encode := by
  cases v with
  | text v => exact .text (.encode _)
  | int32 v =>
    rw [encode, encodeInt_int32]
    exact .int32 (.encode _)
  | uint32 v =>
    rw [encode, encodeInt_uint32]
    exact .uint32 (.encode _)
  | int64 v =>
    rw [encode, encodeInt_int64]
    exact .int64 (.encode _)

theorem OnWire.eq_encode {v : Value} {wire : WireType} {bs : Bytes} (h : v.OnWire wire bs) :
    wire = v.wire ∧ bs = v.encode := by
  cases h with
  | text counted => exact ⟨rfl, congrArg (· ++ _) counted.eq_encode⟩
  | int32 number => exact ⟨rfl, number.eq_encode.trans (encodeInt_int32 _).symm⟩
  | uint32 number => exact ⟨rfl, number.eq_encode.trans (encodeInt_uint32 _).symm⟩
  | int64 number => exact ⟨rfl, number.eq_encode.trans (encodeInt_int64 _).symm⟩

end Value

/-! ## Fields -/

namespace Field

variable {α : Type}

/-- The bytes of a field of the record: none for the default, and else a key and the value. -/
inductive OnWire (f : Field α) (record : α) : Bytes → Prop where
  | leftOut (isDefault : (f.value record).IsDefault) : OnWire f record []
  | written {wire : WireType} {key bytes : Bytes} (needed : ¬ (f.value record).IsDefault)
    (tagged : Varint.Shortest (f.tag * 8 + wire.code) key)
    (value : (f.value record).OnWire wire bytes) : OnWire f record (key ++ bytes)

theorem encode_of_isDefault {f : Field α} {record : α} (h : (f.value record).IsDefault) :
    f.encode record = [] := by
  obtain ⟨tag, name, content⟩ := f
  cases content with
  | text part =>
    have empty : part.get record = "" := h
    simp [encode, empty]
  | int32 part | int64 part =>
    have zero : part.get record = 0 := h
    simp [encode, encode.number, zero]
  | uint32 part =>
    have zero : part.get record = 0 := h
    simp [encode, encode.number, zero]

theorem encode_of_not_isDefault {f : Field α} {record : α} (h : ¬ (f.value record).IsDefault) :
    f.encode record = key f.tag (f.value record).wire ++ (f.value record).encode := by
  obtain ⟨tag, name, content⟩ := f
  cases content with
  | text part =>
    have nonempty : (part.get record).toUTF8.data.toList ≠ [] := by
      intro empty
      have leftOut : (⟨tag, name, .text part⟩ : Field α).encode record = [] := if_pos empty
      exact h (eq_empty_of_left_out leftOut)
    exact (if_neg nonempty).trans (List.append_assoc _ _ _)
  | int32 part =>
    exact if_neg fun zero => h (Int32.toInt_inj.mp zero)
  | uint32 part =>
    exact if_neg fun zero => h (UInt32.toNat_inj.mp (Int.ofNat_inj.mp zero))
  | int64 part =>
    exact if_neg fun zero => h (Int64.toInt_inj.mp zero)

theorem onWire_iff {f : Field α} {record : α} {bs : Bytes} :
    f.OnWire record bs ↔ bs = f.encode record := by
  constructor
  · intro h
    cases h with
    | leftOut isDefault => exact (encode_of_isDefault isDefault).symm
    | written needed tagged value =>
      obtain ⟨rfl, rfl⟩ := value.eq_encode
      rw [encode_of_not_isDefault needed, tagged.eq_encode, key]
  · rintro rfl
    by_cases isDefault : (f.value record).IsDefault
    · rw [encode_of_isDefault isDefault]
      exact .leftOut isDefault
    · rw [encode_of_not_isDefault isDefault]
      exact .written isDefault (.encode _) (Value.onWire_encode _)

end Field

/-! ## Records -/

namespace Schema

variable {α : Type}

/-- The bytes of a record: its fields by ascending tags. -/
def OnWire (s : Schema α) (record : α) (body : Bytes) : Prop :=
  ∃ (fields : List (Field α)) (parts : List Bytes), fields.Perm s.fields ∧
    fields.Pairwise (·.tag < ·.tag) ∧ fields.Forall₂ (·.OnWire record ·) parts ∧
    body = parts.flatten

/-- Fields are declared by ascending tags. -/
def Ascending (s : Schema α) : Prop := s.fields.Pairwise (·.tag < ·.tag)

theorem forall₂_onWire_iff {fields : List (Field α)} {record : α} {parts : List Bytes} :
    fields.Forall₂ (·.OnWire record ·) parts ↔ parts = fields.map (·.encode record) := by
  induction fields generalizing parts with
  | nil => simp
  | cons f fields ih =>
    cases parts with
    | nil => simp
    | cons part parts =>
      rw [List.forall₂_cons, ih, Field.onWire_iff, List.map_cons, List.cons.injEq]

theorem onWire_iff {s : Schema α} (ascending : s.Ascending) {record : α} {body : Bytes} :
    s.OnWire record body ↔ body = s.encode record := by
  constructor
  · rintro ⟨fields, parts, perm, sorted, written, rfl⟩
    obtain rfl : fields = s.fields := by
      refine perm.eq_of_pairwise (fun f g _ _ below above => ?_) sorted ascending
      exact absurd below (Nat.lt_asymm above)
    rw [forall₂_onWire_iff.mp written]
    rfl
  · rintro rfl
    exact ⟨s.fields, _, .refl _, ascending, forall₂_onWire_iff.mpr rfl, rfl⟩

end Schema

end StorageBus.Message

namespace StorageBus

open Message

theorem Disk.schema_ascending : Disk.schema.Ascending := by simp [Schema.Ascending, schema]

theorem Volume.schema_ascending : Volume.schema.Ascending := by simp [Schema.Ascending, schema]

theorem KnownVolume.schema_ascending : KnownVolume.schema.Ascending := by
  simp [Schema.Ascending, schema]

end StorageBus
