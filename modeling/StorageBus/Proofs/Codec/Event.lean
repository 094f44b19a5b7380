import StorageBus.Receiver
import StorageBus.Proofs.Codec.Parcel

/-!
# Events read back

The arguments of every event are carried, so a call that fits into a parcel reaches the listener of
its own interface with the event that it was made of, and no other listener.

## Main results

* `Event.conveys` — the arguments of an event read back as the event.
* `Receiver.receive_encodeCall` — what becomes of a call that fits into a parcel.
-/
namespace StorageBus

open Parcel

namespace Event

/-! ## Arguments -/

/-- A count of units has room in its word. -/
def CountableText (text : String) : Prop := (Text.Utf16.encode text).length < 1 <<< 31

/-- A length has room in its word, if there is a record at all. -/
def CountableRecord {α : Type} (schema : Message.Schema α) (record : Option α) : Prop :=
  ∀ r ∈ record, (schema.encode r).length < 1 <<< 31

/-- The counts of texts and records have room in their words. -/
def Countable : Event → Prop
  | connectionChanged _ => True
  | stateChanged path oldState newState =>
    CountableText path ∧ CountableText oldState ∧ CountableText newState
  | volumeStateChanged volume _ _ => CountableRecord Volume.schema volume
  | volumeRecordChanged record => CountableRecord KnownVolume.schema record
  | volumeForgotten fsUuid => CountableText fsUuid
  | diskScanned disk _ => CountableRecord Disk.schema disk

theorem conveys (e : Event) : Conveys e.Countable 3 (fun p => e.put p) (read e.kind) e := by
  have one : 1 ≤ 3 := by decide
  have two : 1 + 1 ≤ 3 := by decide
  have three : 1 + 1 + 1 ≤ 3 := by decide
  cases e with
  | connectionChanged connected =>
    refine Conveys.mono ?_ Iff.rfl one
    exact (Conveys.bool connected).bind_pure rfl
  | stateChanged path oldState newState =>
    refine Conveys.mono ?_ Iff.rfl three
    refine Conveys.comp (h := fun p => (p.putText oldState).putText newState) (.text path) ?_
    refine Conveys.comp (h := fun p => p.putText newState) (.text oldState) ?_
    exact (Conveys.text newState).bind_pure rfl
  | volumeStateChanged volume oldState newState =>
    have counts : CountableRecord Volume.schema volume ∧ True ∧ True ↔
        CountableRecord Volume.schema volume := by simp
    refine Conveys.mono ?_ counts three
    refine Conveys.comp (h := fun p => (p.putInt oldState).putInt newState)
      (.record Volume.schema_lawful volume) ?_
    refine Conveys.comp (h := fun p => p.putInt newState) (.int oldState) ?_
    exact (Conveys.int newState).bind_pure rfl
  | volumeRecordChanged record =>
    refine Conveys.mono ?_ Iff.rfl one
    exact (Conveys.record KnownVolume.schema_lawful record).bind_pure rfl
  | volumeForgotten fsUuid =>
    refine Conveys.mono ?_ Iff.rfl one
    exact (Conveys.text fsUuid).bind_pure rfl
  | diskScanned disk volumeCount =>
    have counts : CountableRecord Disk.schema disk ∧ True ↔ CountableRecord Disk.schema disk :=
      by simp
    refine Conveys.mono ?_ counts two
    refine Conveys.comp (h := fun p => p.putInt volumeCount) (.record Disk.schema_lawful disk) ?_
    exact (Conveys.int volumeCount).bind_pure rfl

/-- A call is its token followed by its arguments. If all counts have room in their words, as they
have in a short call, each of the two reads back. -/
theorem encodeCall_parts (descriptor : String) (e : Event) :
    ∃ token arguments, (e.encodeCall descriptor).bytes = token ++ arguments ∧
      (token.length + arguments.length < 1 <<< 31 → CountableText descriptor ∧ e.Countable) ∧
      (CountableText descriptor → e.Countable → token.length + arguments.length < 1 <<< 64 ∧
        Takes Reader.token token descriptor ∧ Takes (read e.kind) arguments e) := by
  obtain ⟨token, appendsToken, short, takesToken⟩ := Conveys.token descriptor
  obtain ⟨arguments, appendsArguments, short', takesArguments⟩ := e.conveys
  have bytes := (appendsToken.comp appendsArguments).bytes_put {} rfl
  rw [List.nil_append] at bytes
  refine ⟨token, arguments, bytes, fun few => ⟨short (by omega), short' (by omega)⟩, ?_⟩
  intro countable countable'
  obtain ⟨takesToken, size⟩ := takesToken countable
  obtain ⟨takesArguments, size'⟩ := takesArguments countable'
  have items : (1 + 3) * maxItemSize < 1 <<< 64 := by decide
  exact ⟨by omega, takesToken, takesArguments⟩

end Event

namespace Receiver

variable {σ : Type}

theorem dispatch_own (r : Receiver σ) (e : Event) {arguments : Bytes} (s : σ)
    (h : Event.decodeArguments e.kind arguments = .ok e) :
    r.dispatch e.code r.descriptor arguments s = r.invoke e.code e s := by
  rw [dispatch, if_neg (not_not_intro rfl)]
  simp only [Event.code, Event.Kind.ofCode?_code, h]

/-- A call that fits into a parcel: the listener gets the event it was made of if the call is meant
for its interface, and nothing otherwise. -/
theorem receive_encodeCall (r : Receiver σ) (descriptor : String) (e : Event) (s : σ)
    (fits : (e.encodeCall descriptor).size ≤ maxParcelSize) :
    r.receive e.code (e.encodeCall descriptor).bytes s =
      if descriptor = r.descriptor then r.invoke e.code e s
      else (.rejected (.interfaceMismatch r.descriptor descriptor), s) := by
  obtain ⟨token, arguments, bytes, countable, takes⟩ := e.encodeCall_parts descriptor
  have max : maxParcelSize < 1 <<< 31 := by decide
  rw [Parcel.size, bytes, List.length_append] at fits
  obtain ⟨countable, countable'⟩ := countable (by omega)
  obtain ⟨inWord, takesToken, takesArguments⟩ := takes countable countable'
  have head := takesToken 64 0 arguments (by omega)
  have body := takesArguments 64 0 [] (by omega)
  rw [List.append_nil] at body
  have decoded : Event.decodeArguments e.kind arguments = .ok e := by
    simp only [Event.decodeArguments, Reader.ofBytes, body]
  rw [receive, bytes, Reader.ofBytes, head]
  simp only
  by_cases own : descriptor = r.descriptor
  · subst own
    rw [if_pos rfl, r.dispatch_own e s decoded]
  · rw [if_neg own, dispatch, if_pos own]

end Receiver

end StorageBus
