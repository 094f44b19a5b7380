import StorageBus.Endpoint.Carrier
import StorageBus.Table

/-!
# Scripted carriers

A carrier that answers as it was told to, for each handle. It takes every obituary that it is told
to take, and gives them out on demand.
-/
namespace StorageBus

/-- What a scripted carrier answers for one handle. -/
structure Replies where
  transact : Except Failure Unit := .ok ()
  link : Except Failure Unit := .ok ()

structure Scripted (ω : Type) where
  replies : Table Handle Replies := []
  /-- The obituaries it has taken, in order. -/
  obituaries : List (Handle × ω) := []

namespace Scripted

variable {ω : Type}

def repliesFor (h : Handle) (c : Scripted ω) : Replies := (Table.find? h c.replies).getD {}

def setReplies (h : Handle) (f : Replies → Replies) (c : Scripted ω) : Scripted ω :=
  { c with replies := Table.put h (f (c.repliesFor h)) c.replies }

def link (h : Handle) (obituary : ω) (c : Scripted ω) : Except Failure Unit × Scripted ω :=
  match (c.repliesFor h).link with
  | .error failure => (.error failure, c)
  | .ok () => (.ok (), { c with obituaries := c.obituaries ++ [(h, obituary)] })

/-- The obituaries for a handle, which are forgotten. -/
def release (h : Handle) (c : Scripted ω) : List ω × Scripted ω :=
  ((c.obituaries.filter (·.1 = h)).map (·.2),
    { c with obituaries := c.obituaries.filter (·.1 ≠ h) })

/-- An endpoint of a scripted carrier counts as alive as long as its process does. -/
def carrier (ps : Processes) (ω : Type) : Carrier (Scripted ω) ω where
  transact h _ _ c := ((c.repliesFor h).transact, c)
  isAlive h _ := h.isLive ps
  link := link

end Scripted

end StorageBus
