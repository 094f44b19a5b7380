import StorageBus.Endpoint.Carrier
import StorageBus.Frame.Sink
import StorageBus.Table

/-!
# Lines

The carrier between processes: every subscriber has a line, a byte stream on which each call is one
frame. A frame that was written in part cannot be taken up again, so a line on which a write failed
is dead from then on and is given up. There are no obituaries.

## Main definitions

* `Line` — one line; `Line.write` is a call's turn on the stream.
* `Lines.adopt`, `Lines.send`, `Lines.close` — what is done with the lines.
-/
namespace StorageBus

/-- A byte stream with state `σ` to a subscriber. -/
structure Line (σ : Type) where
  stream : σ
  /-- Whether calls still find the line. -/
  isHeld : Bool := true
  /-- Whether the stream is shut down. -/
  isDead : Bool := false

namespace Line

variable {σ : Type}

/-- Writes a frame, unless the line has died before its turn came. -/
def write (k : Sink σ) (f : Frame) (line : Line σ) : Except Failure Unit × Line σ :=
  if line.isDead then (.error .deadObject, line)
  else
    let (result, stream) := f.write k line.stream
    (result, { line with stream })

def kill (line : Line σ) : Line σ := { line with isDead := true }

def giveUp (line : Line σ) : Line σ := { line with isHeld := false }

end Line

/-- Lines under the handles of their subscribers, also those that were given up. -/
structure Lines (σ : Type) where
  lines : Table Handle (Line σ) := []

namespace Lines

variable {σ ω : Type}

def held? (ls : Lines σ) (h : Handle) : Option (Line σ) :=
  (Table.find? h ls.lines).filter (·.isHeld)

/-- How many lines are held. -/
def length (ls : Lines σ) : Nat := ls.lines.countP (·.2.isHeld)

def update (h : Handle) (f : Line σ → Line σ) (ls : Lines σ) : Lines σ :=
  ⟨Table.update h f ls.lines⟩

/-- A new line under a handle not used before. -/
def adopt (h : Handle) (stream : σ) (ls : Lines σ) : Lines σ :=
  ⟨Table.add h { stream } ls.lines⟩

/-- The frame of a call. -/
def frame (c : Call) : Frame := ⟨c.code, Frame.onewayFlag, c.bytes⟩

/-- Sends a call. Any stream error costs the line, and the caller hears that it is dead. -/
def send (k : Sink σ) (h : Handle) (c : Call) (ls : Lines σ) : Except Failure Unit × Lines σ :=
  match ls.held? h with
  | none => (.error .deadObject, ls)
  | some line =>
    match line.write k (frame c) with
    | (.error (.io _), line) => (.error .deadObject, ls.update h fun _ => line.kill.giveUp)
    | (result, line) => (result, ls.update h fun _ => line)

/-- Gives a line up and shuts it down. Says whether it was held. -/
def close (h : Handle) (ls : Lines σ) : Bool × Lines σ :=
  if (ls.held? h).isSome then (true, ls.update h fun line => line.giveUp.kill) else (false, ls)

/-- Whether the line is held and in order and the subscriber's process exists. -/
def isAlive (ps : Processes) (h : Handle) (ls : Lines σ) : Bool :=
  (ls.held? h).any fun line => !line.isDead && h.isLive ps

def carrier (k : Sink σ) (ps : Processes) (ω : Type) : Carrier (Lines σ) ω where
  transact h _ := send k h
  isAlive := isAlive ps
  link _ _ ls := (.error Carrier.unlinkable, ls)

end Lines

end StorageBus
