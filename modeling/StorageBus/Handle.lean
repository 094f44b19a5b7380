/-!
# Handles and processes

A handle names one subscriber endpoint: an identifier, and the process behind it when it is known.
A handle does not keep that process running, so it may go stale at any time.

## Main definitions

* `Handle`, `Handle.le` — handles and their order: by identifier, then by process, unknown first.
* `Processes` — which processes exist, and `Handle.isLive`, whether the owner of a handle does.
-/
namespace StorageBus

structure Handle where
  id : UInt64
  pid : Option Int32
deriving DecidableEq, Repr, Inhabited

namespace Handle

/-- The name of a handle in messages. -/
def display (h : Handle) : String :=
  match h.pid with
  | some pid => s!"endpoint#{h.id} (pid {pid})"
  | none => s!"endpoint#{h.id}"

/-- The handle field by field. -/
def describe (h : Handle) : String :=
  let pid := match h.pid with
    | some pid => s!"Some({pid})"
    | none => "None"
  s!"EndpointHandle \x7b id: {h.id}, pid: {pid} \x7d"

/-- Smaller identifiers come first; of one identifier, an unknown process comes first. -/
def le (a b : Handle) : Bool :=
  if a.id = b.id then
    match a.pid, b.pid with
    | none, _ => true
    | some _, none => false
    | some p, some q => p ≤ q
  else a.id ≤ b.id

end Handle

/-! ## Liveness -/

/-- The processes that exist: the one that runs this program, and others. -/
structure Processes where
  own : Int32
  others : List Int32
deriving Repr

/-- No process has a number below one. -/
def Processes.exists (ps : Processes) (pid : Int32) : Bool :=
  0 < pid && (pid == ps.own || ps.others.contains pid)

/-- Whether the owning process still exists; an unknown one counts as existing. -/
def Handle.isLive (h : Handle) (ps : Processes) : Bool := h.pid.all ps.exists

end StorageBus
