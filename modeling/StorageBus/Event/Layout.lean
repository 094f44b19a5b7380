import StorageBus.Event.Basic
import StorageBus.Fault
import StorageBus.Parcel.Reader

/-!
# Events in parcels

The arguments of a call are the fields of its event in order. A whole call is the interface token
followed by the arguments. Bytes behind the last argument are ignored.

## Main definitions

* `Event.put`, `Event.encode`, `Event.encodeCall` — events as parcels.
* `Event.read`, `Event.decode` — parcels as events.
-/
namespace StorageBus.Event

open Parcel

/-- The parcel with the arguments of this event appended. -/
def put (p : Parcel) : Event → Parcel
  | connectionChanged connected => p.putBool connected
  | stateChanged path oldState newState =>
    ((p.putText path).putText oldState).putText newState
  | volumeStateChanged volume oldState newState =>
    ((p.putRecord Volume.schema volume).putInt oldState).putInt newState
  | volumeRecordChanged record => p.putRecord KnownVolume.schema record
  | volumeForgotten fsUuid => p.putText fsUuid
  | diskScanned disk volumeCount => (p.putRecord Disk.schema disk).putInt volumeCount

def encode (e : Event) : Parcel := e.put {}

def encodeCall (descriptor : String) (e : Event) : Parcel := e.put (Parcel.putToken descriptor {})

/-- Reads the arguments of an event of this kind. -/
def read : Kind → Read Event
  | .connectionChanged => return connectionChanged (← Reader.bool)
  | .stateChanged => do
    let path ← Reader.text
    let oldState ← Reader.text
    let newState ← Reader.text
    return stateChanged path oldState newState
  | .volumeStateChanged => do
    let volume ← Reader.record Volume.schema
    let oldState ← Reader.int
    let newState ← Reader.int
    return volumeStateChanged volume oldState newState
  | .volumeRecordChanged => return volumeRecordChanged (← Reader.record KnownVolume.schema)
  | .volumeForgotten => return volumeForgotten (← Reader.text)
  | .diskScanned => do
    let disk ← Reader.record Disk.schema
    let volumeCount ← Reader.int
    return diskScanned disk volumeCount

/-- The event of this kind at the start of the bytes. -/
def decodeArguments (k : Kind) (bytes : Bytes) : Except Fault Event :=
  match read k (Reader.ofBytes bytes) with
  | .ok event _ => .ok event
  | .error e _ => .error (.malformed e.message)

def decode (code : UInt32) (bytes : Bytes) : Except Fault Event :=
  match Kind.ofCode? code with
  | none => .error (.unrecognized code)
  | some k => decodeArguments k bytes

end StorageBus.Event
