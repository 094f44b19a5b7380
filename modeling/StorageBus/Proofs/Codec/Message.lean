import StorageBus.Message.Schema
import StorageBus.Storage.Record

/-!
# Messages read back

Decoding the message of a record gives the record. Every field that is written takes its value
over from the record, and leaves the other fields alone; a field that is left out has its default
in the record, as it has in the blank one that reading starts from.

## Main definitions

* `Field.value`, `Field.copy` — what a field holds, and taking that over from another record.
* `Schema.Lawful` — the tags of a schema tell its fields apart, and the fields make up the record.

## Main results

* `Schema.decode_encode` — reading back, for every lawful schema.
* `Disk.schema_lawful`, `Volume.schema_lawful`, `KnownVolume.schema_lawful`.
-/
namespace StorageBus.Message

/-! ## Varints -/

namespace Varint

/-- How many numbers take no more than `room + 1` bytes, the last of which is at most one. -/
def bound : Nat → Nat
  | 0 => 2
  | room + 1 => 128 * bound room

theorem decodeWithin_encode (room n : Nat) (h : n < bound room) (rest : Bytes) :
    decodeWithin (room + 1) (encode n ++ rest) = some (n, rest) := by
  induction room generalizing n with
  | zero =>
    have small : n < 2 := h
    rw [encode, if_pos (by omega)]
    have byte : UInt8.ofNat n < 128 := by
      rw [UInt8.lt_iff_toNat_lt]
      simp
      omega
    have last : ¬ 1 < UInt8.ofNat n := by
      rw [UInt8.lt_iff_toNat_lt]
      simp
      omega
    simp [decodeWithin, byte, last]
    omega
  | succ room ih =>
    rw [encode]
    split
    · next small =>
      have byte : UInt8.ofNat n < 128 := by
        rw [UInt8.lt_iff_toNat_lt]
        simp
        omega
      simp [decodeWithin, byte]
      omega
    · have byte : ¬ UInt8.ofNat (n % 128 + 128) < 128 := by
        rw [UInt8.lt_iff_toNat_lt]
        simp
        omega
      have high : n / 128 < bound room := by
        simp only [bound] at h
        omega
      simp only [List.cons_append, decodeWithin, if_neg byte, ih _ high]
      simp
      omega

theorem decode_encode {n : Nat} (h : n < 1 <<< 64) (rest : Bytes) :
    decode (encode n ++ rest) = some (n, rest) :=
  decodeWithin_encode 9 n h rest

theorem encode_ne_nil (n : Nat) : encode n ≠ [] := by
  rw [encode]
  split <;> simp

end Varint

theorem readVarint_encode {n : Nat} (h : n < 1 <<< 64) (rest : Bytes) :
    readVarint (Varint.encode n ++ rest) = .ok (n, rest) := by
  simp [readVarint, Varint.decode_encode h]

theorem key_ne_nil (tag : Nat) (wire : WireType) : key tag wire ≠ [] := Varint.encode_ne_nil _

theorem readKey_key {tag : Nat} (positive : 0 < tag) (small : tag < 1 <<< 29) (wire : WireType)
    (rest : Bytes) : readKey (key tag wire ++ rest) = .ok (tag, wire, rest) := by
  have code : wire.code < 6 := by cases wire <;> decide
  have key_lt : tag * 8 + wire.code < 1 <<< 32 := by
    simp only [Nat.shiftLeft_eq] at *
    omega
  have low : (tag * 8 + wire.code) % 8 = wire.code := by omega
  have high : (tag * 8 + wire.code) / 8 = tag := by omega
  have read := readVarint_encode (n := tag * 8 + wire.code)
    (Nat.lt_of_lt_of_le key_lt (by decide)) rest
  simp only [readKey, key, read, low, high, WireType.ofCode?_code]
  rw [if_neg (by omega), if_neg (by omega)]

theorem readDelimited_encode {bs : Bytes} (h : bs.length < 1 <<< 64) (rest : Bytes) :
    readDelimited (Varint.encode bs.length ++ bs ++ rest) = .ok (bs, rest) := by
  simp [readDelimited, readVarint_encode h, readBytes]

theorem readText_toUTF8 (text : String) : Field.readText text.toUTF8.data.toList = .ok text := by
  have valid : String.fromUTF8? text.toUTF8 = some text := by
    simp [String.fromUTF8?, String.fromUTF8, text.isValidUTF8]
  simp only [Field.readText, Array.toArray_toList]
  rw [valid]

/-! ## Numbers

A number travels modulo `2 ^ 64`; its low bits give it back. -/

theorem int32_ofNat_emod (v : Int32) : Int32.ofNat (v.toInt % (1 <<< 64 : Nat)).toNat = v := by
  apply Int32.toInt_inj.mp
  have low := v.le_toInt
  have high := v.toInt_lt
  rw [Int32.toInt_ofNat', Int.toNat_of_nonneg (Int.emod_nonneg _ (by decide)), Int.bmod_def]
  simp [Int32.size] at *
  omega

theorem int64_ofNat_emod (v : Int64) : Int64.ofNat (v.toInt % (1 <<< 64 : Nat)).toNat = v := by
  apply Int64.toInt_inj.mp
  have low := v.le_toInt
  have high := v.toInt_lt
  rw [Int64.toInt_ofNat', Int.toNat_of_nonneg (Int.emod_nonneg _ (by decide)), Int.bmod_def]
  simp [Int64.size] at *
  omega

theorem uint32_ofNat_emod (v : UInt32) :
    UInt32.ofNat ((v.toNat : Int) % (1 <<< 64 : Nat)).toNat = v := by
  apply UInt32.toNat_inj.mp
  have high := v.toNat_lt
  simp
  omega

theorem readVarint_encodeInt (v : Int) (rest : Bytes) :
    readVarint (encodeInt v ++ rest) = .ok ((v % (1 <<< 64 : Nat)).toNat, rest) := by
  apply readVarint_encode
  have low := Int.emod_nonneg v (b := ((1 <<< 64 : Nat) : Int)) (by decide)
  have high := Int.emod_lt_of_pos v (b := ((1 <<< 64 : Nat) : Int)) (by decide)
  omega

/-! ## Fields -/

/-- What a field of a record holds. -/
inductive Value where
  | text (v : String)
  | int32 (v : Int32)
  | uint32 (v : UInt32)
  | int64 (v : Int64)

namespace Field

variable {α : Type}

def value (f : Field α) (record : α) : Value :=
  match f.content with
  | .text part => .text (part.get record)
  | .int32 part => .int32 (part.get record)
  | .uint32 part => .uint32 (part.get record)
  | .int64 part => .int64 (part.get record)

/-- The second record with the field as it is in the first. -/
def copy (f : Field α) (source target : α) : α :=
  match f.content with
  | .text part => part.set (part.get source) target
  | .int32 part => part.set (part.get source) target
  | .uint32 part => part.set (part.get source) target
  | .int64 part => part.set (part.get source) target

theorem number_cases (f : Field α) (v : Int) :
    encode.number f v = [] ∨ encode.number f v = key f.tag .varint ++ encodeInt v := by
  by_cases zero : v = 0
  · exact .inl (if_pos zero)
  · exact .inr (if_neg zero)

theorem eq_zero_of_number_eq_nil {f : Field α} {v : Int} (h : encode.number f v = []) : v = 0 := by
  by_cases zero : v = 0
  · exact zero
  · rw [encode.number, if_neg zero] at h
    exact absurd (List.append_eq_nil_iff.mp h).1 (key_ne_nil _ _)

/-- A field is either left out, or written behind its key such that reading it copies it. -/
theorem read_encode (f : Field α) (record : α) (small : (f.encode record).length < 1 <<< 64) :
    f.encode record = [] ∨ ∃ body, f.encode record = key f.tag f.wire ++ body ∧
      ∀ rest target, f.read f.wire (body ++ rest) target = .ok (f.copy record target, rest) := by
  obtain ⟨tag, name, content⟩ := f
  cases content with
  | text part =>
    by_cases empty : (part.get record).toUTF8.data.toList = []
    · exact .inl (if_pos empty)
    · simp only [encode, if_neg empty, List.append_assoc] at small ⊢
      refine .inr ⟨_, rfl, fun rest target => ?_⟩
      simp only [List.length_append] at small
      have short : (part.get record).toUTF8.data.toList.length < 1 <<< 64 := by omega
      have read := readDelimited_encode short rest
      simp only [Field.read, wire, ne_eq, not_true_eq_false, ↓reduceIte, read, readText_toUTF8,
        copy]
  | int32 part =>
    refine (number_cases _ _).imp_right fun written => ⟨_, written, fun rest target => ?_⟩
    simp only [Field.read, wire, ne_eq, not_true_eq_false, ↓reduceIte, readVarint_encodeInt,
      setNumber, int32_ofNat_emod, copy]
  | uint32 part =>
    refine (number_cases _ _).imp_right fun written => ⟨_, written, fun rest target => ?_⟩
    simp only [Field.read, wire, ne_eq, not_true_eq_false, ↓reduceIte, readVarint_encodeInt,
      setNumber, uint32_ofNat_emod, copy]
  | int64 part =>
    refine (number_cases _ _).imp_right fun written => ⟨_, written, fun rest target => ?_⟩
    simp only [Field.read, wire, ne_eq, not_true_eq_false, ↓reduceIte, readVarint_encodeInt,
      setNumber, int64_ofNat_emod, copy]

theorem eq_empty_of_left_out {tag : Nat} {name : String} {part : Part α String} {record : α}
    (h : (⟨tag, name, .text part⟩ : Field α).encode record = []) : part.get record = "" := by
  by_cases empty : (part.get record).toUTF8.data.toList = []
  · apply String.toByteArray_inj.mp
    apply ByteArray.ext
    exact Array.toList_eq_nil_iff.mp empty
  · simp only [encode, if_neg empty, List.append_eq_nil_iff] at h
    exact absurd h.1.1 (key_ne_nil _ _)

/-- Of two records that both leave a field out, the field holds the same: its default. -/
theorem value_eq_of_left_out {f : Field α} {a b : α} (ha : f.encode a = [])
    (hb : f.encode b = []) : f.value a = f.value b := by
  obtain ⟨tag, name, content⟩ := f
  cases content with
  | text part => simp only [value, eq_empty_of_left_out ha, eq_empty_of_left_out hb]
  | int32 part =>
    have same := (eq_zero_of_number_eq_nil ha).trans (eq_zero_of_number_eq_nil hb).symm
    simp only [value, Int32.toInt_inj.mp same]
  | uint32 part =>
    have same := (eq_zero_of_number_eq_nil ha).trans (eq_zero_of_number_eq_nil hb).symm
    simp only [value, UInt32.toNat_inj.mp (Int.ofNat_inj.mp same)]
  | int64 part =>
    have same := (eq_zero_of_number_eq_nil ha).trans (eq_zero_of_number_eq_nil hb).symm
    simp only [value, Int64.toInt_inj.mp same]

end Field

/-! ## Schemas -/

namespace Schema

variable {α : Type}

/-- The tags of a schema tell its fields apart, fields do not overlap, and together they make up
the record; a blank record leaves every field out. -/
structure Lawful (s : Schema α) : Prop where
  tag_pos : ∀ f ∈ s.fields, 0 < f.tag
  tag_lt : ∀ f ∈ s.fields, f.tag < 1 <<< 29
  field?_tag : ∀ f ∈ s.fields, s.field? f.tag = some f
  value_copy : ∀ f ∈ s.fields, ∀ source target, f.value (f.copy source target) = f.value source
  value_copy_of_ne : ∀ f ∈ s.fields, ∀ g ∈ s.fields, f.tag ≠ g.tag → ∀ source target,
    g.value (f.copy source target) = g.value target
  encode_blank : ∀ f ∈ s.fields, f.encode s.blank = []
  ext : ∀ a b, (∀ f ∈ s.fields, f.value a = f.value b) → a = b

@[simp] theorem decodeOnto_nil (s : Schema α) (record : α) :
    s.decodeOnto record [] = .ok record := by
  rw [decodeOnto, if_pos rfl]

/-- Reading a declared field in front of other bytes. -/
theorem decodeOnto_field {s : Schema α} (lawful : s.Lawful) {f : Field α} (declared : f ∈ s.fields)
    {body rest : Bytes} {target changed : α}
    (read : f.read f.wire (body ++ rest) target = .ok (changed, rest)) :
    s.decodeOnto target (key f.tag f.wire ++ body ++ rest) = s.decodeOnto changed rest := by
  have head : readKey (key f.tag f.wire ++ body ++ rest) = .ok (f.tag, f.wire, body ++ rest) := by
    rw [List.append_assoc]
    exact readKey_key (lawful.tag_pos f declared) (lawful.tag_lt f declared) f.wire (body ++ rest)
  rw [decodeOnto, if_neg (by simp [key_ne_nil])]
  split
  · next e h => cases head.symm.trans h
  · next tag wire after h =>
    cases head.symm.trans h
    rw [lawful.field?_tag f declared]
    simp only
    split
    · next e h => cases read.symm.trans h
    · next other after h =>
      cases read.symm.trans h
      rfl

/-- A record on the way from blank to `record`, with `pending` still to be read: every field holds
what it should, unless it is pending and not left out. -/
def Partial (s : Schema α) (record target : α) (pending : List (Field α)) : Prop :=
  ∀ g ∈ s.fields, g.value target = g.value record ∨ (g ∈ pending ∧ g.encode record ≠ [])

theorem Lawful.eq_of_tag_eq {s : Schema α} (lawful : s.Lawful) {f g : Field α}
    (hf : f ∈ s.fields) (hg : g ∈ s.fields) (h : f.tag = g.tag) : f = g := by
  have found := lawful.field?_tag f hf
  rw [h, lawful.field?_tag g hg] at found
  exact (Option.some.inj found).symm

theorem decodeOnto_encode {s : Schema α} (lawful : s.Lawful) (record : α)
    (small : (s.encode record).length < 1 <<< 64) (pending : List (Field α))
    (declared : pending ⊆ s.fields) (target : α) (part : s.Partial record target pending) :
    s.decodeOnto target (pending.flatMap (·.encode record)) = .ok record := by
  induction pending generalizing target with
  | nil =>
    have all : target = record := lawful.ext _ _ fun g hg => by simpa using part g hg
    simp [all]
  | cons f pending ih =>
    have hf : f ∈ s.fields := declared List.mem_cons_self
    have hpending : pending ⊆ s.fields := fun g hg => declared (List.mem_cons_of_mem _ hg)
    have short : (f.encode record).length ≤ (s.encode record).length := by
      have mem : f.encode record ∈ s.fields.map (·.encode record) := List.mem_map_of_mem hf
      exact (List.sublist_flatten_of_mem mem).length_le
    rw [List.flatMap_cons]
    rcases f.read_encode record (by omega) with leftOut | ⟨body, written, read⟩
    · rw [leftOut, List.nil_append]
      refine ih hpending target fun g hg => ?_
      rcases part g hg with same | ⟨mem, kept⟩
      · exact .inl same
      · refine .inr ⟨?_, kept⟩
        rcases List.mem_cons.mp mem with rfl | mem
        · exact absurd leftOut kept
        · exact mem
    · rw [written, decodeOnto_field lawful hf (read _ _)]
      refine ih hpending _ fun g hg => ?_
      by_cases same : f.tag = g.tag
      · obtain rfl := lawful.eq_of_tag_eq hf hg same
        exact .inl (lawful.value_copy f hf record target)
      · rw [lawful.value_copy_of_ne f hf g hg same]
        rcases part g hg with same | ⟨mem, kept⟩
        · exact .inl same
        · refine .inr ⟨?_, kept⟩
          rcases List.mem_cons.mp mem with rfl | mem
          · exact absurd rfl same
          · exact mem

theorem decode_encode {s : Schema α} (lawful : s.Lawful) (record : α)
    (small : (s.encode record).length < 1 <<< 64) : s.decode (s.encode record) = .ok record := by
  refine decodeOnto_encode lawful record small s.fields (fun _ h => h) s.blank fun g hg => ?_
  by_cases leftOut : g.encode record = []
  · exact .inl (Field.value_eq_of_left_out (lawful.encode_blank g hg) leftOut)
  · exact .inr ⟨hg, leftOut⟩

end Schema

end StorageBus.Message

namespace StorageBus

open Message

theorem Disk.schema_lawful : Disk.schema.Lawful where
  tag_pos := by simp [schema]
  tag_lt := by simp [schema]
  field?_tag := by simp [schema, Schema.field?]
  value_copy := by simp [schema, Field.value, Field.copy]
  value_copy_of_ne := by simp [schema, Field.value, Field.copy]
  encode_blank := by simp [schema, Field.encode, Field.encode.number]
  ext := by
    rintro ⟨⟩ ⟨⟩
    simp [schema, Field.value]

theorem Volume.schema_lawful : Volume.schema.Lawful where
  tag_pos := by simp [schema]
  tag_lt := by simp [schema]
  field?_tag := by simp [schema, Schema.field?]
  value_copy := by simp [schema, Field.value, Field.copy]
  value_copy_of_ne := by simp [schema, Field.value, Field.copy]
  encode_blank := by simp [schema, Field.encode, Field.encode.number]
  ext := by
    rintro ⟨⟩ ⟨⟩
    simp +contextual [schema, Field.value]

theorem KnownVolume.schema_lawful : KnownVolume.schema.Lawful where
  tag_pos := by simp [schema]
  tag_lt := by simp [schema]
  field?_tag := by simp [schema, Schema.field?]
  value_copy := by simp [schema, Field.value, Field.copy]
  value_copy_of_ne := by simp [schema, Field.value, Field.copy]
  encode_blank := by simp [schema, Field.encode, Field.encode.number]
  ext := by
    rintro ⟨⟩ ⟨⟩
    simp +contextual [schema, Field.value]

end StorageBus
