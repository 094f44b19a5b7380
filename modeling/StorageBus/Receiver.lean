import StorageBus.Event.Layout
import StorageBus.Listener.Basic

/-!
# Receivers

The receiving end of the calls: a listener behind an interface descriptor. A call passes four checks
in this order before the listener sees its event: the token is readable, it is the receiver's own,
the code is known, and the arguments decode. Faults and panics of the listener end here; each is
reported once.

## Main definitions

* `Verdict` — what became of a call.
* `Receiver.receive` — one call, from the token on; `Receiver.dispatch` — the same without a token.
-/
namespace StorageBus

inductive Verdict where
  /-- The listener accepted the event. -/
  | handled
  /-- The code is not part of the interface. -/
  | notHandled
  /-- The call is meant for another interface. -/
  | rejected (fault : Fault)
  /-- The call could not be decoded, or the listener failed. -/
  | failed (fault : Fault)
deriving DecidableEq, Repr

def Verdict.isHandled : Verdict → Bool
  | handled => true
  | notHandled | rejected _ | failed _ => false

/-- A listener, the interface it implements, and the channel for its failures. -/
structure Receiver (σ : Type) where
  descriptor : String := defaultDescriptor
  listener : Listener σ
  report : UInt32 → Fault → σ → σ := fun _ _ s => s

namespace Receiver

variable {σ : Type}

/-- The fault that a call of the listener ends in, if it does not end well. A panic, and any fault
that is not the listener's own, counts as a failure of the listener. -/
def failure? : Except Panic (Except Fault Unit) → Option Fault
  | .ok (.ok ()) => none
  | .ok (.error (.handler reason)) => some (.handler reason)
  | .ok (.error fault) => some (.handler fault.message)
  | .error panic => some (.handler panic.describe)

/-- Calls the listener, and reports its failure if it fails. -/
def invoke (r : Receiver σ) (code : UInt32) (event : Event) (s : σ) : Verdict × σ :=
  let (outcome, s) := (r.listener event).attempt s
  match failure? outcome with
  | none => (.handled, s)
  | some fault => (.failed fault, r.report code fault s)

/-- A call with this token and these arguments. -/
def dispatch (r : Receiver σ) (code : UInt32) (descriptor : String) (arguments : Bytes) (s : σ) :
    Verdict × σ :=
  if descriptor ≠ r.descriptor then
    (.rejected (.interfaceMismatch r.descriptor descriptor), s)
  else
    match Event.Kind.ofCode? code with
    | none => (.notHandled, s)
    | some k =>
      match Event.decodeArguments k arguments with
      | .error fault => (.failed fault, s)
      | .ok event => r.invoke code event s

/-- A call as it arrives. Its arguments are read as bytes of their own, from position zero. -/
def receive (r : Receiver σ) (code : UInt32) (bytes : Bytes) (s : σ) : Verdict × σ :=
  match Parcel.Reader.token (Parcel.Reader.ofBytes bytes) with
  | .error e _ => (.failed (.malformed e.message), s)
  | .ok descriptor after => r.dispatch code descriptor after.rest s

end Receiver

end StorageBus
