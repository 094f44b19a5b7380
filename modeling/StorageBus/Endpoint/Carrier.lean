import StorageBus.Bytes
import StorageBus.Fault
import StorageBus.Part

/-!
# Carriers

A carrier takes calls to the endpoints it knows, without waiting for an answer. It may know whether
an endpoint still exists, and may keep an obituary for it: what is to be done once it dies.

## Main definitions

* `Carrier` — what a carrier does within a state.
* `Carrier.on` — a carrier of a part as a carrier of the whole.
-/
namespace StorageBus

/-- A call under way: its code, and its token and arguments. -/
structure Call where
  code : UInt32
  bytes : Bytes
deriving DecidableEq, Repr

/-- A carrier with state `σ` that keeps obituaries `ω`. -/
structure Carrier (σ ω : Type) where
  /-- Takes a call to the endpoint with the handle, which is expected to own the descriptor. -/
  transact : (h : Handle) → (descriptor : String) → Call → σ → Except Failure Unit × σ
  isAlive : Handle → σ → Bool
  link : Handle → ω → σ → Except Failure Unit × σ

namespace Carrier

variable {σ τ ω : Type}

/-- The answer of a carrier that keeps no obituaries. -/
def unlinkable : Failure := .rejected "death notification not supported"

def on (p : Part τ σ) (c : Carrier σ ω) : Carrier τ ω where
  transact h descriptor call := p.lift (c.transact h descriptor call)
  isAlive h s := c.isAlive h (p.get s)
  link h obituary := p.lift (c.link h obituary)

end Carrier

end StorageBus
