import StorageBus.Endpoint.Remote
import StorageBus.Roster.Broadcast

/-!
# Publishers

A publisher tells every listener on its roster about events. A remote listener is registered
together with an obituary that takes it off the roster again when its endpoint dies.

## Main definitions

* `Session.registerRemote` — registration of a remote listener.
* `Session.notify` — an event for everyone.
-/
namespace StorageBus.Session

variable {L σ ω : Type}

/-- Registers a listener behind a carrier and leaves the obituary with the carrier. An endpoint that
turns out to be dead at this point is taken off again; a carrier that keeps no obituaries does not
stand in the way. -/
def registerRemote (c : Carrier σ ω) (obituary : ω) (h : Handle) (l : L) (s : Session L σ) :
    Bool × Session L σ :=
  match s.register h l with
  | (false, s) => (false, s)
  | (true, s) =>
    match restPart.lift (c.link h obituary) s with
    | (.ok (), s) => (true, s)
    | (.error failure, s) => if failure.isDead then (false, (s.unregister h).2) else (true, s)

/-- Tells every registered listener about the event. -/
def notify (listener : L → Listener (Session L σ)) (e : Event) : Act (Session L σ) Report :=
  broadcast fun l => listener l e

end StorageBus.Session
