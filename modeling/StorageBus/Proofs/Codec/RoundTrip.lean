import StorageBus.Proofs.Codec.Event
import StorageBus.Proofs.Codec.Wire

/-!
# Events there and back

Decoding what an event is encoded to gives the event and takes every byte, if all counts have room
in their words. They do if the event fits into a parcel that a carrier takes.

## Main definitions

* `Event.RecordOnWire` — where the record of an event lies, and its bytes.

## Main results

* `Event.round_trip` — what the encoding of an event is, and that it decodes to the event.
-/
namespace StorageBus

open Parcel

/-- The bytes start with this record: a flag, and if there is a record the length of its message
and the message with padding. -/
def Parcel.StartsWithRecord {α : Type} (schema : Message.Schema α) (record : Option α)
    (bytes : Bytes) : Prop :=
  match record with
  | none => Word.encode 4 0 <+: bytes
  | some record => ∃ body, schema.OnWire record body ∧
      Word.encode 4 1 ++ (Word.encode 4 (UInt32.ofNat body.length).toNat ++ align body) <+: bytes

namespace Event

/-- The record of an event, if it is of a kind that has one, comes first in its encoding. -/
def RecordOnWire (bytes : Bytes) : Event → Prop
  | volumeStateChanged volume _ _ => StartsWithRecord Volume.schema volume bytes
  | volumeRecordChanged record => StartsWithRecord KnownVolume.schema record bytes
  | diskScanned disk _ => StartsWithRecord Disk.schema disk bytes
  | connectionChanged _ | stateChanged _ _ _ | volumeForgotten _ => True

theorem startsWithRecord_putRecord {α : Type} {schema : Message.Schema α}
    (ascending : schema.Ascending) (record : Option α) {bytes : Bytes}
    (front : (putRecord schema record {}).bytes <+: bytes) :
    StartsWithRecord schema record bytes := by
  cases record with
  | none => exact front
  | some record =>
    refine ⟨schema.encode record, (Message.Schema.onWire_iff ascending).mpr rfl, ?_⟩
    have parts := (Appends.int 1).comp
      (.counted (schema.encode record).length (schema.encode record))
    have bytes_put := parts.bytes_put {} rfl
    rw [List.nil_append] at bytes_put
    exact bytes_put ▸ front

theorem recordOnWire_encode (e : Event) : e.RecordOnWire e.encode.bytes := by
  cases e with
  | volumeStateChanged volume oldState newState =>
    refine startsWithRecord_putRecord Volume.schema_ascending volume ?_
    exact (List.prefix_append _ _).trans (List.prefix_append _ _)
  | volumeRecordChanged record =>
    exact startsWithRecord_putRecord KnownVolume.schema_ascending record List.prefix_rfl
  | diskScanned disk volumeCount =>
    exact startsWithRecord_putRecord Disk.schema_ascending disk (List.prefix_append _ _)
  | connectionChanged | stateChanged | volumeForgotten => trivial

/-- What an event is encoded to, and how it reads back. -/
theorem encode_spec (e : Event) :
    e.encode.size % 4 = 0 ∧ (e.encode.size < 1 <<< 31 → e.Countable) ∧
      (e.Countable → e.encode.size ≤ 3 * maxItemSize ∧ Takes (read e.kind) e.encode.bytes e) := by
  obtain ⟨bytes, appends, short, takes⟩ := e.conveys
  have encoded : e.encode.bytes = bytes := appends.bytes_put {} rfl
  rw [Parcel.size, encoded]
  refine ⟨appends.aligned, short, fun countable => ?_⟩
  exact ⟨(takes countable).2, (takes countable).1⟩

/-- The encoding of an event is a multiple of four bytes long, and its record is on the wire by the
rules of messages. If all counts have room in their words, as they have in every parcel that a
carrier takes, then decoding gives the event, and reading takes every byte. -/
theorem round_trip (e : Event) :
    (e.Countable → decode e.code e.encode.bytes = .ok e ∧
      read e.kind (Reader.ofBytes e.encode.bytes) =
        .ok e { position := e.encode.size, rest := [] }) ∧
    (e.encode.size ≤ maxParcelSize → e.Countable) ∧
    e.encode.size % 4 = 0 ∧
    e.RecordOnWire e.encode.bytes := by
  obtain ⟨aligned, short, takes⟩ := e.encode_spec
  have max : maxParcelSize < 1 <<< 31 := by decide
  refine ⟨fun countable => ?_, fun few => short (by omega), aligned, e.recordOnWire_encode⟩
  obtain ⟨size, takes⟩ := takes countable
  have inWord : 0 + e.encode.bytes.length < 1 <<< 64 := by
    have items : 3 * maxItemSize < 1 <<< 64 := by decide
    rw [Parcel.size] at size
    omega
  have all := takes 64 0 [] inWord
  rw [List.append_nil, Nat.zero_add] at all
  have taken : read e.kind (Reader.ofBytes e.encode.bytes) =
      .ok e { position := e.encode.size, rest := [] } := all
  refine ⟨?_, taken⟩
  rw [decode, code, Kind.ofCode?_code]
  simp only [decodeArguments, taken]

/-- Texts with a zero character and with one that takes two units. -/
theorem round_trip_zero :
    let e : Event := .stateChanged "\x00𝄞" "é" ""
    e.Countable ∧ decode 2 e.encode.bytes = .ok e ∧ e.encode.size = 28 := by
  intro e
  have size : e.encode.size = 28 := by decide +kernel
  have countable := e.round_trip.2.1 (by rw [size]; decide)
  exact ⟨countable, (e.round_trip.1 countable).1, size⟩

end Event

end StorageBus
