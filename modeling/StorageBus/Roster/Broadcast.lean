import StorageBus.Listener.Basic
import StorageBus.Part
import StorageBus.Roster.Basic

/-!
# Broadcasts

One call to every listener that is registered when the broadcast starts, in the order of
registration. Calls may change the roster in turn. A failed call stops nothing; a listener that
turns out to be unavailable is taken off the roster. Only a panic ends a broadcast early.

## Main definitions

* `Session` — a roster, and whatever else its listeners act on.
* `Session.broadcast`, with its `Report`.
-/
namespace StorageBus

structure Session (L σ : Type) where
  roster : Roster L := {}
  rest : σ

/-- The outcome of a broadcast. -/
structure Report where
  /-- How many calls were accepted. -/
  delivered : Nat := 0
  /-- The handles whose calls failed, in order. -/
  failed : List Handle := []
  /-- How many of those were taken off the roster. -/
  pruned : Nat := 0
deriving DecidableEq, Repr

/-- The report with an accepted call more. -/
def Report.accept (r : Report) : Report := { r with delivered := r.delivered + 1 }

/-- The report with a failed call more, after which the handle was taken off the roster or not. -/
def Report.fail (r : Report) (h : Handle) (removed : Bool) : Report :=
  { r with
    failed := r.failed ++ [h]
    pruned := if removed then r.pruned + 1 else r.pruned }

namespace Session

variable {L σ : Type}

def rosterPart : Part (Session L σ) (Roster L) := ⟨roster, fun r s => { s with roster := r }⟩

def restPart : Part (Session L σ) σ := ⟨rest, fun v s => { s with rest := v }⟩

def register (h : Handle) (l : L) : Session L σ → Bool × Session L σ :=
  rosterPart.lift (Roster.register h l)

def unregister (h : Handle) : Session L σ → Bool × Session L σ :=
  rosterPart.lift (Roster.unregister h)

/-- What follows from the answer to a call under the handle. -/
def settle (h : Handle) (answer : Except Fault Unit) (report : Report) (s : Session L σ) :
    Report × Session L σ :=
  match answer with
  | .ok () => (report.accept, s)
  | .error fault =>
    if fault.isUnavailable then
      let (removed, s) := s.unregister h
      (report.fail h removed, s)
    else (report.fail h false, s)

/-- Calls the listeners of these entries one after the other. -/
def callEach (call : L → Act (Session L σ) (Except Fault Unit)) :
    List (Entry L) → Report → Act (Session L σ) Report
  | [], report => return report
  | e :: es, report => do
    let answer ← call e.listener
    callEach call es (← modifyGet (settle e.handle answer report))

/-- Calls every listener that is registered now. -/
def broadcast (call : L → Act (Session L σ) (Except Fault Unit)) : Act (Session L σ) Report := do
  callEach call (← get).roster.entries {}

end Session

end StorageBus
