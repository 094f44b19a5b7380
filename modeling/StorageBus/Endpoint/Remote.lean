import StorageBus.Endpoint.Carrier
import StorageBus.Event.Layout

/-!
# Remote listeners

A listener that passes every event on to an endpoint as one call. Whatever keeps the carrier from
taking the call makes the endpoint unavailable.
-/
namespace StorageBus

structure Remote where
  handle : Handle
  descriptor : String := defaultDescriptor
deriving DecidableEq, Repr

namespace Remote

variable {σ ω : Type}

/-- The call for an event. -/
def call (r : Remote) (e : Event) : Call := ⟨e.code, (e.encodeCall r.descriptor).bytes⟩

def send (c : Carrier σ ω) (r : Remote) (e : Event) (s : σ) : Except Fault Unit × σ :=
  match c.transact r.handle r.descriptor (r.call e) s with
  | (.ok (), s) => (.ok (), s)
  | (.error failure, s) => (.error (.unavailable r.handle failure), s)

end Remote

end StorageBus
