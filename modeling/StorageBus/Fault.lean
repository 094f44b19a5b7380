import StorageBus.Handle
import StorageBus.Text.Quoted

/-!
# What can go wrong

Causes of failure, from the byte stream up to a listener's own error, each with its message.

## Main definitions

* `IoError` — a failed operation on a byte stream.
* `Failure` — why a carrier did not take a call, and `Failure.isDead`, whether the endpoint is gone.
* `Fault` — why a call did not end well.
-/
namespace StorageBus

/-! ## Byte streams -/

inductive IoError.Kind where
  | brokenPipe
  | connectionReset
  | connectionAborted
  | notConnected
  | unexpectedEof
  | timedOut
  | wouldBlock
  | interrupted
  | other
  | permissionDenied
  | notFound
  | invalidData
  | invalidInput
  | connectionRefused
  | addrInUse
  | writeZero
deriving DecidableEq, Repr

/-- The kind of a stream error, and a text of its own if it has one. -/
structure IoError where
  kind : IoError.Kind
  text : Option String := none
deriving DecidableEq, Repr

namespace IoError

def Kind.all : List Kind :=
  [.brokenPipe, .connectionReset, .connectionAborted, .notConnected, .unexpectedEof, .timedOut,
    .wouldBlock, .interrupted, .other, .permissionDenied, .notFound, .invalidData, .invalidInput,
    .connectionRefused, .addrInUse, .writeZero]

def Kind.name : Kind → String
  | .brokenPipe => "BrokenPipe"
  | .connectionReset => "ConnectionReset"
  | .connectionAborted => "ConnectionAborted"
  | .notConnected => "NotConnected"
  | .unexpectedEof => "UnexpectedEof"
  | .timedOut => "TimedOut"
  | .wouldBlock => "WouldBlock"
  | .interrupted => "Interrupted"
  | .other => "Other"
  | .permissionDenied => "PermissionDenied"
  | .notFound => "NotFound"
  | .invalidData => "InvalidData"
  | .invalidInput => "InvalidInput"
  | .connectionRefused => "ConnectionRefused"
  | .addrInUse => "AddrInUse"
  | .writeZero => "WriteZero"

def Kind.ofName? (name : String) : Option Kind := Kind.all.find? (·.name == name)

/-- What is said of an error that has no text of its own. -/
def Kind.description : Kind → String
  | .brokenPipe => "broken pipe"
  | .connectionReset => "connection reset"
  | .connectionAborted => "connection aborted"
  | .notConnected => "not connected"
  | .unexpectedEof => "unexpected end of file"
  | .timedOut => "timed out"
  | .wouldBlock => "operation would block"
  | .interrupted => "operation interrupted"
  | .other => "other error"
  | .permissionDenied => "permission denied"
  | .notFound => "entity not found"
  | .invalidData => "invalid data"
  | .invalidInput => "invalid input parameter"
  | .connectionRefused => "connection refused"
  | .addrInUse => "address in use"
  | .writeZero => "write zero"

def message (e : IoError) : String := e.text.getD e.kind.description

/-- The stream ended before all that was asked for had come. -/
def shortRead : IoError := ⟨.unexpectedEof, some "failed to fill whole buffer"⟩

/-- The stream took nothing of what it was given. -/
def shortWrite : IoError := ⟨.writeZero, some "failed to write whole buffer"⟩

end IoError

/-! ## Carriers -/

inductive Failure where
  /-- The endpoint has exited or was killed. -/
  | deadObject
  /-- The carrier refused the call. -/
  | rejected (reason : String)
  | tooLarge (size limit : Nat)
  | io (error : IoError)
deriving DecidableEq, Repr

namespace Failure

def message : Failure → String
  | deadObject => "dead object"
  | rejected reason => s!"call rejected: {reason}"
  | tooLarge size limit => s!"parcel of {size} bytes exceeds the {limit} byte limit"
  | io error => error.message

/-- The stream errors after which a stream is of no more use. -/
def goneKinds : List IoError.Kind :=
  [.brokenPipe, .connectionReset, .connectionAborted, .notConnected, .unexpectedEof, .timedOut,
    .wouldBlock]

/-- Whether the endpoint is gone for good. -/
def isDead : Failure → Bool
  | deadObject => true
  | rejected _ | tooLarge _ _ => false
  | io error => goneKinds.contains error.kind

end Failure

/-! ## Calls -/

inductive Fault where
  /-- The caller presented another interface token than the receiver owns. -/
  | interfaceMismatch (expected actual : String)
  /-- The parcel was cut short or is otherwise undecodable. -/
  | malformed (reason : String)
  /-- No kind of event has this code. -/
  | unrecognized (code : UInt32)
  /-- The endpoint is dead or the carrier refused the call. -/
  | unavailable (handle : Handle) (cause : Failure)
  /-- The listener failed while it handled an event. -/
  | handler (reason : String)
deriving DecidableEq, Repr

namespace Fault

def message : Fault → String
  | interfaceMismatch expected actual =>
    let expected := Text.Quoted.encode expected
    let actual := Text.Quoted.encode actual
    s!"interface mismatch: expected {expected}, got {actual}"
  | malformed reason => s!"malformed payload: {reason}"
  | unrecognized code => s!"unrecognized transaction code {code}"
  | unavailable handle _ =>
    let name := handle.display
    s!"remote endpoint {name} unavailable"
  | handler reason => s!"listener handler failed: {reason}"

/-- The failure underneath, if there is one. -/
def cause? : Fault → Option Failure
  | unavailable _ cause => some cause
  | _ => none

def isUnavailable (f : Fault) : Bool := f.cause?.isSome

end Fault

end StorageBus
