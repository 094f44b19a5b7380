import StorageBus.Endpoint.Remote
import StorageBus.Proofs.Codec.Event

/-!
# What a listener is called with

A receiver can be watched without any influence on what it does: a note is made of every event that
its listener is called with. Calls that fit into a parcel and are made for the receiver's own
interface are noted one by one, and calls made for another interface are not.

## Main definitions

* `Receiver.noting` — the receiver under watch.
* `Remote.Fits` — whether the call for an event fits into a parcel.

## Main results

* `Receiver.noting_invoke` — watching changes nothing.
* `Receiver.notes_of_calls` — the notes of one call after the other.
-/
namespace StorageBus

variable {σ ν : Type}

/-- Whether the call for an event fits into a parcel. -/
def Remote.Fits (r : Remote) (e : Event) : Prop :=
  (e.encodeCall r.descriptor).size ≤ maxParcelSize

instance (r : Remote) (e : Event) : Decidable (r.Fits e) := inferInstanceAs (Decidable (_ ≤ _))

namespace Receiver

/-- The receiver with a note of every event its listener is called with, the earliest first. -/
def noting (r : Receiver σ) (note : Event → ν) : Receiver (List ν × σ) where
  descriptor := r.descriptor
  listener e := fun (notes, s) =>
    match r.listener e s with
    | .ok answer s => .ok answer (notes ++ [note e], s)
    | .error panic s => .error panic (notes ++ [note e], s)
  report code fault := fun (notes, s) => (notes, r.report code fault s)

variable (r : Receiver σ) (note : Event → ν)

theorem noting_invoke (code : UInt32) (e : Event) (notes : List ν) (s : σ) :
    (r.noting note).invoke code e (notes, s) =
      ((r.invoke code e s).1, notes ++ [note e], (r.invoke code e s).2) := by
  simp only [invoke, noting, Act.attempt]
  cases r.listener e s with
  | ok answer s =>
    simp only
    split <;> rfl
  | error panic s =>
    simp only
    split <;> rfl

/-- What becomes of a state by a call for the receiver. -/
def attend (c : Call) (s : σ) : σ := (r.receive c.code c.bytes s).2

/-- Of any call at most one note is made. -/
theorem noting_attend_cases (c : Call) (notes : List ν) (s : σ) :
    ((r.noting note).attend c (notes, s)).1 = notes ∨
      ∃ e, ((r.noting note).attend c (notes, s)).1 = notes ++ [note e] := by
  unfold attend receive
  split
  · exact .inl rfl
  · unfold dispatch
    split
    · exact .inl rfl
    · split
      · exact .inl rfl
      · split
        · exact .inl rfl
        · next e _ => exact .inr ⟨e, by rw [noting_invoke]⟩

theorem attend_call (remote : Remote) {e : Event} (fits : remote.Fits e) (s : σ) :
    r.attend (remote.call e) s =
      if remote.descriptor = r.descriptor then (r.invoke e.code e s).2 else s := by
  rw [attend, Remote.call, receive_encodeCall r remote.descriptor e s fits]
  split <;> rfl

theorem noting_attend (remote : Remote) {e : Event} (fits : remote.Fits e) (notes : List ν)
    (s : σ) :
    ((r.noting note).attend (remote.call e) (notes, s)).1 =
      notes ++ if remote.descriptor = r.descriptor then [note e] else [] := by
  rw [attend_call _ remote fits]
  have same : (r.noting note).descriptor = r.descriptor := rfl
  rw [same]
  split
  · rw [noting_invoke]
  · rw [List.append_nil]

theorem notes_of_calls (remote : Remote) {es : List Event} (fits : ∀ e ∈ es, remote.Fits e)
    (notes : List ν) (s : σ) :
    ((es.map remote.call).foldl (fun s c => (r.noting note).attend c s) (notes, s)).1 =
      notes ++ if remote.descriptor = r.descriptor then es.map note else [] := by
  induction es generalizing notes s with
  | nil => split <;> simp
  | cons e es ih =>
    have first := r.noting_attend note remote (fits e List.mem_cons_self) notes s
    rw [List.map_cons, List.foldl_cons]
    generalize (r.noting note).attend (remote.call e) (notes, s) = next at first ⊢
    obtain ⟨notes', s'⟩ := next
    simp only at first
    rw [ih (fun e mem => fits e (List.mem_cons_of_mem _ mem)), first]
    split <;> simp

end Receiver

end StorageBus
