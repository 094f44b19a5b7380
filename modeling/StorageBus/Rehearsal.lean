import StorageBus.Listener.Script
import StorageBus.Receiver

/-!
# Rehearsals

Scripted listeners under observation: every call that reaches one is noted under its name before it
answers, and so is what its receiver reports.

## Main definitions

* `Observation` — what can be noted.
* `Rehearsal` — players with their scripts, and the notes.
* `Rehearsal.cue` — the next action of a player; `Rehearsal.listener`, `Rehearsal.receiver` — a
  player as a listener, alone or behind a descriptor.
* `Rehearsal.tell`, `Rehearsal.attend` — events and calls for a player.
-/
namespace StorageBus

inductive Observation where
  /-- The listener was called. -/
  | call (event : Event)
  /-- Its failure was reported. -/
  | report (code : UInt32) (fault : Fault)
  /-- A receiver was done with a call of so many bytes. -/
  | verdict (code : UInt32) (size : Nat) (verdict : Verdict)
  /-- An endpoint died, of which only the name is left. -/
  | death (name : String)
  /-- A carrier was asked to take a call. -/
  | carried (name descriptor : String) (code : UInt32) (bytes : Bytes)
deriving DecidableEq, Repr

/-- A scripted listener and the name under which it is observed. -/
structure Player (ν κ : Type) where
  name : ν
  script : Script κ

structure Rehearsal (ν κ : Type) where
  players : List (Player ν κ) := []
  /-- Notes, the latest first. -/
  notes : List (ν × Observation) := []

namespace Rehearsal

variable {ν κ : Type}

def note (name : ν) (what : Observation) (r : Rehearsal ν κ) : Rehearsal ν κ :=
  { r with notes := (name, what) :: r.notes }

/-- Adds a player; the number of players before it is its number. -/
def join (name : ν) (script : Script κ) (r : Rehearsal ν κ) : Rehearsal ν κ :=
  { r with players := r.players ++ [⟨name, script⟩] }

/-- The notes so far, the earliest first, and a rehearsal without them. -/
def takeNotes (r : Rehearsal ν κ) : List (ν × Observation) × Rehearsal ν κ :=
  (r.notes.reverse, { r with notes := [] })

/-- What player `i` does in its next call, of which a note is made unless the player is silent. -/
def cue (i : Nat) (event : Event) (r : Rehearsal ν κ) : Script.Action κ × Rehearsal ν κ :=
  match r.players[i]? with
  | none => (.accept, r)
  | some player =>
    let (action, script) := player.script.next event.kind
    let r := if script.isSilent then r else r.note player.name (.call event)
    (action, { r with players := r.players.set i { player with script } })

/-- Player `i` as a listener, where errands do nothing. -/
def listener (i : Nat) : Listener (Rehearsal ν κ) := fun event => do
  let action ← modifyGet (cue i event)
  action.act fun _ => return

/-- Tells player `i` of one event after the other. -/
def tell (i : Nat) :
    List Event → Rehearsal ν κ → List (Except Panic (Except Fault Unit)) × Rehearsal ν κ
  | [], r => ([], r)
  | e :: es, r =>
    let (answer, r) := (listener i e).attempt r
    let (answers, r) := tell i es r
    (answer :: answers, r)

/-- Player `i` behind a descriptor. Its failures are noted under its name. -/
def receiver (descriptor : String) (name : ν) (i : Nat) : Receiver (Rehearsal ν κ) where
  descriptor := descriptor
  listener := listener i
  report code fault := note name (.report code fault)

/-- Hands a call on to a player behind a descriptor and notes the verdict under its name. -/
def attend (descriptor : String) (name : ν) (i : Nat) (code : UInt32) (bytes : Bytes)
    (r : Rehearsal ν κ) : Rehearsal ν κ :=
  let (verdict, r) := (receiver descriptor name i).receive code bytes r
  r.note name (.verdict code bytes.length verdict)

end Rehearsal

end StorageBus
