import StorageBus.Endpoint.Remote
import StorageBus.Endpoint.Scripted
import StorageBus.Listener.Script

/-!
# Steps

What can be asked of a publisher and its carriers in a scenario. Handles go by names. Listeners are
scripted, and their errands are lists of steps in turn.

## Main definitions

* `Via` — the three carriers.
* `Step` — one step; `Obituary` — what carriers keep for the case of a death.
* `Answer` — what a step gives.
-/
namespace StorageBus.Scenario

/-- The carriers of a scenario: mailboxes, lines and a scripted one. -/
inductive Via where
  | mailboxes
  | lines
  | scripted
deriving DecidableEq, Repr

inductive Step where
  /-- Opens an endpoint with a mailbox, served by a listener behind the descriptor. -/
  | enroll (name descriptor : String) (listener : Script (List Step))
  /-- Gives a name to a handle. -/
  | label (name : String) (h : Handle)
  /-- Adopts a line to a new peer. -/
  | adopt (name : String)
  | registerRemote (name : String) (via : Via)
  /-- Registers a listener that is called directly. -/
  | registerLocal (name : String) (listener : Script (List Step))
  /-- Registers a remote listener without an obituary. -/
  | registerBare (name : String) (via : Via) (descriptor : String)
  | unregister (name : String)
  | contains (name : String)
  | clear
  | sweep
  | length
  | handles
  | notify (event : Event)
  /-- Sends an event to one endpoint, past the roster. -/
  | send (name : String) (via : Via) (descriptor : String) (event : Event)
  | transact (name : String) (via : Via) (call : Call)
  | isAlive (name : String) (via : Via)
  /-- Leaves an obituary, noted under the tag when its time comes. -/
  | link (name : String) (via : Via) (tag : String) (errand : List Step)
  | kill (name : String)
  /-- Stops the worker of an endpoint's mailbox. -/
  | hold (name : String)
  | release (name : String)
  /-- Changes what the scripted carrier answers; what is left out stays. -/
  | setReplies (name : String) (toCalls toLinks : Option (Except Failure Unit))
  /-- Has the scripted carrier see to its obituaries. -/
  | die (name : String)
  | close (name : String)
  /-- Takes all bytes that wait at a peer. -/
  | peerRead (name : String)
  | peerDrop (name : String)
  | peerShutdown (name : String)
  /-- Serves the frames that wait at a peer. -/
  | peerServe (name : String) (listener : Script (List Step))
  /-- Serves the frames at a peer until its line ends. -/
  | peerBackground (name : String) (listener : Script (List Step))
deriving Inhabited

/-- What is to be done when an endpoint dies. -/
inductive Obituary where
  | unregister
  | errand (tag : String) (steps : List Step)

inductive Answer where
  | done
  | flag (b : Bool)
  | count (n : Nat)
  /-- The size of a collection. -/
  | size (n : Nat)
  /-- A line to a peer in this process was adopted; so many are held now. -/
  | adopted (n : Nat)
  | names (names : List String)
  | report (delivered : Nat) (failed : List String) (pruned : Nat)
  | transacted (result : Except Failure Unit)
  /-- What became of an event that was sent, and whether the endpoint is alive after it. -/
  | sent (name descriptor : String) (result : Except Fault Unit) (alive : Bool)
  /-- Whether there was something to end, and how many of its kind are left. -/
  | killed (was : Bool) (left : Nat)
  | closed (was : Bool) (left : Nat)
  /-- Bytes, and whether the stream has ended behind them. -/
  | read (bytes : Bytes) (ended : Bool)
  | served (result : Except Failure Nat)

end StorageBus.Scenario
