import StorageBus.Message.Field
import StorageBus.Part

/-!
# Messages by schema

A schema declares the fields of a record: for each a tag, a name and where its value lives in the
record. Writing puts the fields in the order of their declaration and leaves out those with the
default value, zero or the empty text. Reading accepts fields in any order, lets a later value
replace an earlier one and skips the fields that are not declared.

## Main definitions

* `Field`, `Schema` — declarations.
* `Schema.encode`, `Schema.decode` — records as bytes, and bytes as records.
-/
namespace StorageBus.Message

/-- The type of a declared field, with the place of its value. -/
inductive Content (α : Type) where
  | text (part : Part α String)
  | int32 (part : Part α Int32)
  | uint32 (part : Part α UInt32)
  | int64 (part : Part α Int64)

structure Field (α : Type) where
  tag : Nat
  name : String
  content : Content α

structure Schema (α : Type) where
  name : String
  fields : List (Field α)
  /-- The record in which every field has its default. -/
  blank : α

variable {α : Type}

/-! ## Writing -/

/-- The number modulo `2 ^ 64`, as a varint. Negative numbers thus take ten bytes. -/
def encodeInt (v : Int) : Bytes := Varint.encode (v % (1 <<< 64 : Nat)).toNat

namespace Field

def encode (f : Field α) (record : α) : Bytes :=
  match f.content with
  | .text part =>
    let bytes := (part.get record).toUTF8.data.toList
    if bytes = [] then []
    else key f.tag .lengthDelimited ++ Varint.encode bytes.length ++ bytes
  | .int32 part => number (part.get record).toInt
  | .uint32 part => number (part.get record).toNat
  | .int64 part => number (part.get record).toInt
where
  number (v : Int) : Bytes := if v = 0 then [] else key f.tag .varint ++ encodeInt v

/-! ## Reading -/

/-- The wire type of a field's values. -/
def wire (f : Field α) : WireType :=
  match f.content with
  | .text _ => .lengthDelimited
  | .int32 _ | .uint32 _ | .int64 _ => .varint

/-- The text that bytes encode, if they are valid UTF-8. -/
def readText (bytes : Bytes) : Except Defect String :=
  match String.fromUTF8? ⟨bytes.toArray⟩ with
  | some text => .ok text
  | none => .error .notUtf8

/-- The record with this number in the field, of which the low bits are kept. -/
def setNumber (f : Field α) (n : Nat) (record : α) : α :=
  match f.content with
  | .text _ => record
  | .int32 part => part.set (Int32.ofNat n) record
  | .uint32 part => part.set (UInt32.ofNat n) record
  | .int64 part => part.set (Int64.ofNat n) record

/-- Reads a value of wire type `wire` into the record. -/
def read (f : Field α) (wire : WireType) (bs : Bytes) (record : α) : Except Defect (α × Bytes) :=
  if wire ≠ f.wire then .error (.wireMismatch wire f.wire)
  else match f.content with
    | .text part =>
      match readDelimited bs with
      | .error e => .error e
      | .ok (bytes, rest) =>
        match readText bytes with
        | .error e => .error e
        | .ok text => .ok (part.set text record, rest)
    | _ =>
      match readVarint bs with
      | .error e => .error e
      | .ok (n, rest) => .ok (f.setNumber n record, rest)

theorem read_length {f : Field α} {wire : WireType} {bs rest : Bytes} {record changed : α}
    (h : f.read wire bs record = .ok (changed, rest)) : rest.length ≤ bs.length := by
  unfold read at h
  split at h
  · simp at h
  · split at h
    · split at h
      · simp at h
      · next hread =>
        split at h
        · simp at h
        · simp only [Except.ok.injEq, Prod.mk.injEq] at h
          obtain ⟨-, rfl⟩ := h
          exact readDelimited_length hread
    · split at h
      · simp at h
      · next hread =>
        simp only [Except.ok.injEq, Prod.mk.injEq] at h
        obtain ⟨-, rfl⟩ := h
        exact Nat.le_of_lt (readVarint_length hread)

end Field

namespace Schema

def encode (s : Schema α) (record : α) : Bytes := s.fields.flatMap (·.encode record)

def field? (s : Schema α) (tag : Nat) : Option (Field α) := s.fields.find? (·.tag == tag)

/-- Reads fields into the record until the bytes end. -/
def decodeOnto (s : Schema α) (record : α) (bs : Bytes) : Except DecodeError α :=
  if bs = [] then .ok record
  else match hkey : readKey bs with
    | .error e => .error ⟨none, e⟩
    | .ok (tag, wire, rest) =>
      have := readKey_length hkey
      match s.field? tag with
      | some f =>
        match hread : f.read wire rest record with
        | .error e => .error ⟨some (s.name, f.name), e⟩
        | .ok (changed, after) =>
          have := Field.read_length hread
          decodeOnto s changed after
      | none =>
        match skip maxDepth tag wire rest with
        | .error e => .error ⟨none, e⟩
        | .ok ⟨after, _⟩ => decodeOnto s record after
termination_by bs.length

def decode (s : Schema α) (bs : Bytes) : Except DecodeError α := s.decodeOnto s.blank bs

end Schema

end StorageBus.Message
