import StorageBus.Proofs.Codec.Form

/-!
# Bytes that decode

The arguments of an event are the forms of its fields, one behind the other. Bytes that start with
them decode to the event, and all other bytes are malformed.

## Main definitions

* `Event.Form` — the forms of the arguments of an event.
* `Event.StartsWith` — bytes that start with such a form.

## Main results

* `Event.accepts_read` — the arguments of every kind.
* `Event.decodes_iff_form` — what decodes, to what, and what is malformed.
-/
namespace StorageBus

namespace Event

open Parcel

/-- The arguments of an event, one behind the other. -/
inductive Form : Event → Bytes → Prop
  | connectionChanged {connected : Bool} {bs : Bytes} (hasForm : BoolForm connected bs) :
    Form (.connectionChanged connected) bs
  | stateChanged {path oldState newState : String} {bs cs ds : Bytes} (first : TextForm path bs)
    (second : TextForm oldState cs) (third : TextForm newState ds) :
    Form (.stateChanged path oldState newState) (bs ++ (cs ++ ds))
  | volumeStateChanged {volume : Option Volume} {oldState newState : Int32} {bs cs ds : Bytes}
    (first : RecordForm Volume.schema volume bs) (second : IntForm oldState cs)
    (third : IntForm newState ds) :
    Form (.volumeStateChanged volume oldState newState) (bs ++ (cs ++ ds))
  | volumeRecordChanged {record : Option KnownVolume} {bs : Bytes}
    (hasForm : RecordForm KnownVolume.schema record bs) : Form (.volumeRecordChanged record) bs
  | volumeForgotten {fsUuid : String} {bs : Bytes} (hasForm : TextForm fsUuid bs) :
    Form (.volumeForgotten fsUuid) bs
  | diskScanned {disk : Option Disk} {volumeCount : Int32} {bs cs : Bytes}
    (first : RecordForm Disk.schema disk bs) (second : IntForm volumeCount cs) :
    Form (.diskScanned disk volumeCount) (bs ++ cs)

/-- The reader of every kind accepts the forms of the events of that kind. -/
theorem accepts_read (k : Kind) : Accepts 3 (read k) (fun e bs => e.kind = k ∧ e.Form bs) := by
  cases k with
  | connectionChanged =>
    refine ((Accepts.bool.map connectionChanged).congr fun e bs => ?_).mono (by decide)
    constructor
    · rintro ⟨connected, hasForm, rfl⟩
      exact ⟨rfl, .connectionChanged hasForm⟩
    · rintro ⟨kind, hasForm⟩
      cases hasForm with
      | connectionChanged hasForm => exact ⟨_, hasForm, rfl⟩
      | _ => cases kind
  | stateChanged =>
    refine (Accepts.text.bind fun path => Accepts.text.bind fun oldState =>
      Accepts.text.map fun newState => stateChanged path oldState newState).congr fun e bs => ?_
    constructor
    · rintro ⟨path, _, _, rfl, first, oldState, _, _, rfl, second, newState, third, rfl⟩
      exact ⟨rfl, .stateChanged first second third⟩
    · rintro ⟨kind, hasForm⟩
      cases hasForm with
      | stateChanged first second third =>
        exact ⟨_, _, _, rfl, first, _, _, _, rfl, second, _, third, rfl⟩
      | _ => cases kind
  | volumeStateChanged =>
    refine ((Accepts.record Volume.schema).bind fun volume => Accepts.int.bind fun oldState =>
      Accepts.int.map fun newState => volumeStateChanged volume oldState newState).congr
      fun e bs => ?_
    constructor
    · rintro ⟨volume, _, _, rfl, first, oldState, _, _, rfl, second, newState, third, rfl⟩
      exact ⟨rfl, .volumeStateChanged first second third⟩
    · rintro ⟨kind, hasForm⟩
      cases hasForm with
      | volumeStateChanged first second third =>
        exact ⟨_, _, _, rfl, first, _, _, _, rfl, second, _, third, rfl⟩
      | _ => cases kind
  | volumeRecordChanged =>
    refine (((Accepts.record KnownVolume.schema).map volumeRecordChanged).congr
      fun e bs => ?_).mono (by decide)
    constructor
    · rintro ⟨record, hasForm, rfl⟩
      exact ⟨rfl, .volumeRecordChanged hasForm⟩
    · rintro ⟨kind, hasForm⟩
      cases hasForm with
      | volumeRecordChanged hasForm => exact ⟨_, hasForm, rfl⟩
      | _ => cases kind
  | volumeForgotten =>
    refine ((Accepts.text.map volumeForgotten).congr fun e bs => ?_).mono (by decide)
    constructor
    · rintro ⟨fsUuid, hasForm, rfl⟩
      exact ⟨rfl, .volumeForgotten hasForm⟩
    · rintro ⟨kind, hasForm⟩
      cases hasForm with
      | volumeForgotten hasForm => exact ⟨_, hasForm, rfl⟩
      | _ => cases kind
  | diskScanned =>
    refine (((Accepts.record Disk.schema).bind fun disk =>
      Accepts.int.map fun volumeCount => diskScanned disk volumeCount).congr
      fun e bs => ?_).mono (by decide)
    constructor
    · rintro ⟨disk, _, _, rfl, first, volumeCount, second, rfl⟩
      exact ⟨rfl, .diskScanned first second⟩
    · rintro ⟨kind, hasForm⟩
      cases hasForm with
      | diskScanned first second => exact ⟨_, _, _, rfl, first, _, second, rfl⟩
      | _ => cases kind

/-- The first `n` of the bytes are a form of the event, which is of this kind. -/
def StartsWith (k : Kind) (bytes : Bytes) (e : Event) (n : Nat) : Prop :=
  n ≤ bytes.length ∧ e.kind = k ∧ e.Form (bytes.take n)

theorem startsWith_iff {k : Kind} {bytes : Bytes} {e : Event} {n : Nat} :
    StartsWith k bytes e n ↔ ∃ taken rest, bytes = taken ++ rest ∧ taken.length = n ∧
      e.kind = k ∧ e.Form taken := by
  constructor
  · rintro ⟨le, kind, hasForm⟩
    exact ⟨_, _, (List.take_append_drop n bytes).symm, List.length_take_of_le le, kind, hasForm⟩
  · rintro ⟨taken, rest, rfl, rfl, kind, hasForm⟩
    refine ⟨by simp, kind, ?_⟩
    rwa [List.take_left]

theorem few_items : 3 * maxItemSize < 1 <<< 64 := by decide

theorem decodes_iff {k : Kind} {bytes : Bytes} {e : Event} {n : Nat} :
    Decodes k.code bytes e n ↔ StartsWith k bytes e n := by
  rw [startsWith_iff]
  constructor
  · rintro ⟨k', after, known, ok, rfl⟩
    rw [Kind.ofCode?_code] at known
    cases known
    obtain ⟨taken, rest, rfl, ⟨kind, hasForm⟩, rfl⟩ := ((accepts_read k).ok_iff few_items).mp ok
    exact ⟨taken, rest, rfl, rfl, kind, hasForm⟩
  · rintro ⟨taken, rest, rfl, rfl, kind, hasForm⟩
    refine ⟨k, ⟨64, taken.length, rest⟩, Kind.ofCode?_code k, ?_, rfl⟩
    exact ((accepts_read k).ok_iff few_items).mpr ⟨taken, rest, rfl, ⟨kind, hasForm⟩, rfl⟩

/-- Under the code of a kind nothing else goes wrong than that the arguments are malformed. -/
theorem ok_or_malformed (k : Kind) (bytes : Bytes) :
    (∃ e, decode k.code bytes = .ok e) ∨ Malformed k.code bytes := by
  simp only [Malformed, decode, Kind.ofCode?_code, decodeArguments]
  cases read k (Reader.ofBytes bytes) with
  | ok e after => exact .inl ⟨e, rfl⟩
  | error e after => exact .inr ⟨e.message, rfl⟩

theorem malformed_iff {k : Kind} {bytes : Bytes} :
    Malformed k.code bytes ↔ ¬ ∃ e n, StartsWith k bytes e n := by
  constructor
  · rintro ⟨text, malformed⟩ ⟨e, n, starts⟩
    have ok := decode_iff.mpr ⟨n, decodes_iff.mpr starts⟩
    cases malformed.symm.trans ok
  · intro none
    refine (ok_or_malformed k bytes).resolve_left fun ⟨e, ok⟩ => none ?_
    obtain ⟨n, decodes⟩ := decode_iff.mp ok
    exact ⟨e, n, decodes_iff.mp decodes⟩

/-- Under the code of a kind, bytes decode to an event of that kind, and so many of them are taken,
exactly if these are a form of its arguments. All other bytes are malformed. -/
theorem decodes_iff_form (k : Kind) (bytes : Bytes) :
    (∀ e n, Decodes k.code bytes e n ↔ StartsWith k bytes e n) ∧
    (∀ e, decode k.code bytes = .ok e ↔ ∃ n, StartsWith k bytes e n) ∧
    (Malformed k.code bytes ↔ ¬ ∃ e n, StartsWith k bytes e n) := by
  refine ⟨fun e n => decodes_iff, fun e => ?_, malformed_iff⟩
  rw [decode_iff]
  exact exists_congr fun n => decodes_iff

/-- A text that is absent, and one with padding that is not zero and bytes behind it. -/
example : decode 5 [255, 255, 255, 255] = .ok (.volumeForgotten "") ∧
    decode 5 [0, 0, 0, 0, 0, 0, 7, 9, 1] = .ok (.volumeForgotten "") := by decide

end Event

end StorageBus
