import StorageBus.Endpoint.Carrier
import StorageBus.Listener.Basic
import StorageBus.Parcel.Basic
import StorageBus.Table

/-!
# Mailboxes

The carrier within one process: every endpoint has a mailbox, and a worker that takes calls out of
it in the order in which they came. The worker takes a call, looks whether the mailbox is still
open, and only then hands the call on. Killing an endpoint closes its mailbox for good, and then
sees to the obituaries kept for it.

## Main definitions

* `Mailbox` — one mailbox with its worker; `Mailbox.take`, `Mailbox.check`, `Mailbox.release` are
  the steps of the worker.
* `Mailboxes` — all of them; `Mailboxes.post`, `Mailboxes.link`, `Mailboxes.close`.
* `Mailboxes.kill`, `Mailboxes.deliver` — an endpoint's end, and everything that waits for it.
-/
namespace StorageBus

/-- What waits in a mailbox: a call, or a marker that tells when all before it is done. -/
inductive Job where
  | call (c : Call)
  | marker (ticket : Nat)
deriving DecidableEq, Repr

/-- What a worker holds. -/
inductive Hand where
  | empty
  /-- A job just taken. -/
  | taken (job : Job)
  /-- A call that found the mailbox open. -/
  | cleared (c : Call)
deriving DecidableEq, Repr

structure Mailbox (ω : Type) where
  isOpen : Bool := true
  /-- Jobs, the earliest first. -/
  queue : List Job := []
  hand : Hand := .empty
  /-- The tickets of the markers the worker has passed, the latest first. -/
  passed : List Nat := []
  /-- What is to be done when the endpoint dies, in the order in which it was asked for. -/
  obituaries : List ω := []

namespace Mailbox

variable {ω : Type}

/-- The box with a job more. -/
def push (job : Job) (b : Mailbox ω) : Mailbox ω := { b with queue := b.queue ++ [job] }

/-! ## The worker's steps -/

/-- An idle worker takes the first job. -/
def take (b : Mailbox ω) : Mailbox ω :=
  match b.hand, b.queue with
  | .empty, job :: queue => { b with queue, hand := .taken job }
  | _, _ => b

/-- A worker with a call keeps it only if the box is open; with a marker it notes the ticket. -/
def check (b : Mailbox ω) : Mailbox ω :=
  match b.hand with
  | .taken (.call c) => { b with hand := if b.isOpen then .cleared c else .empty }
  | .taken (.marker ticket) => { b with hand := .empty, passed := ticket :: b.passed }
  | .empty | .cleared _ => b

/-- A worker with a cleared call gives it out. -/
def release (b : Mailbox ω) : Option Call × Mailbox ω :=
  match b.hand with
  | .cleared c => (some c, { b with hand := .empty })
  | .empty | .taken _ => (none, b)

/-- All three steps without anything between them. -/
def turn (b : Mailbox ω) : Option Call × Mailbox ω := b.take.check.release

end Mailbox

/-- Mailboxes under the handles of their endpoints, also those of endpoints that have died. -/
structure Mailboxes (ω : Type) where
  boxes : Table Handle (Mailbox ω) := []

namespace Mailboxes

variable {ω τ : Type}

/-! ## Single mailboxes -/

/-- The mailbox of a live endpoint. -/
def openBox? (m : Mailboxes ω) (h : Handle) : Option (Mailbox ω) :=
  (Table.find? h m.boxes).filter (·.isOpen)

def isAlive (h : Handle) (m : Mailboxes ω) : Bool := (m.openBox? h).isSome

/-- How many endpoints are alive. -/
def length (m : Mailboxes ω) : Nat := m.boxes.countP (·.2.isOpen)

def update (h : Handle) (f : Mailbox ω → Mailbox ω) (m : Mailboxes ω) : Mailboxes ω :=
  ⟨Table.update h f m.boxes⟩

/-- A new endpoint under a handle not used before. -/
def enroll (h : Handle) (m : Mailboxes ω) : Mailboxes ω := ⟨Table.add h {} m.boxes⟩

/-- Puts a call into the mailbox, unless it is too large or the endpoint is not alive. -/
def post (h : Handle) (c : Call) (m : Mailboxes ω) : Except Failure Unit × Mailboxes ω :=
  let size := c.bytes.length
  if maxParcelSize < size then (.error (.tooLarge size maxParcelSize), m)
  else if m.isAlive h then (.ok (), m.update h (·.push (.call c)))
  else (.error .deadObject, m)

/-- Puts a marker into the mailbox of a live endpoint. -/
def mark (h : Handle) (ticket : Nat) (m : Mailboxes ω) : Bool × Mailboxes ω :=
  if m.isAlive h then (true, m.update h (·.push (.marker ticket))) else (false, m)

/-- Keeps an obituary for a live endpoint. -/
def link (h : Handle) (obituary : ω) (m : Mailboxes ω) : Except Failure Unit × Mailboxes ω :=
  if m.isAlive h then
    (.ok (), m.update h fun b => { b with obituaries := b.obituaries ++ [obituary] })
  else (.error .deadObject, m)

/-- Closes the mailbox of a live endpoint and gives out the obituaries kept for it. -/
def close (h : Handle) (m : Mailboxes ω) : Option (List ω) × Mailboxes ω :=
  match m.openBox? h with
  | none => (none, m)
  | some b => (some b.obituaries, m.update h fun b => { b with isOpen := false, obituaries := [] })

/-- One turn of the endpoint's worker. -/
def turn (h : Handle) (m : Mailboxes ω) : Option Call × Mailboxes ω :=
  match Table.find? h m.boxes with
  | none => (none, m)
  | some b =>
    let (c, b) := b.turn
    (c, m.update h fun _ => b)

def carrier (ω : Type) : Carrier (Mailboxes ω) ω where
  transact h _ := post h
  isAlive := isAlive
  link := link

/-! ## Endpoints within a larger state -/

/-- Kills an endpoint and then sees to its obituaries, one after the other. Says whether it was
alive. -/
def kill (p : Part τ (Mailboxes ω)) (run : Handle → ω → Act τ Unit) (h : Handle) : Act τ Bool := do
  match ← modifyGet (p.lift (close h)) with
  | none => return false
  | some obituaries =>
    obituaries.forM (run h)
    return true

/-- So many turns of the endpoint's worker. -/
def turns (p : Part τ (Mailboxes ω)) (handOn : Handle → Call → τ → τ) (h : Handle) :
    Nat → τ → τ
  | 0, s => s
  | n + 1, s =>
    let (c, s) := p.lift (turn h) s
    turns p handOn h n (c.elim s (handOn h · s))

/-- As many turns as there are jobs waiting. -/
def deliver (p : Part τ (Mailboxes ω)) (handOn : Handle → Call → τ → τ) (h : Handle) (s : τ) : τ :=
  let waiting := (Table.find? h (p.get s).boxes).elim 0 (·.queue.length)
  turns p handOn h waiting s

end Mailboxes

end StorageBus
