import StorageBus.Listener.Basic

/-!
# Scripted listeners

A listener whose answers are laid down in advance, for each kind of event its own. Besides answering
it may run an errand, of a type that the script leaves open.

## Main definitions

* `Script.Action` — what is done in one call.
* `Script.Behaviour` — the actions for one kind, the same in every call or one call after the other.
* `Script`, `Script.next` — the behaviours of all kinds, and the action for the next call.
-/
namespace StorageBus

namespace Script

inductive Action (κ : Type) where
  | accept
  | refuse (fault : Fault)
  | panic (message : Option String)
  /-- Runs the errand, then accepts. -/
  | errand (task : κ)
deriving Inhabited

/-- The action, with `run` for its errand. -/
def Action.act {κ σ : Type} (run : κ → Act σ Unit) : Action κ → Act σ (Except Fault Unit)
  | accept => return .ok ()
  | refuse fault => return .error fault
  | panic message => throw ⟨message⟩
  | errand task => do
    run task
    return .ok ()

inductive Behaviour (κ : Type) where
  | always (action : Action κ)
  /-- One action a call; calls after the last are accepted. -/
  | inTurn (actions : List (Action κ))
deriving Inhabited

/-- The action for the next call, and the behaviour after it. -/
def Behaviour.next {κ : Type} : Behaviour κ → Action κ × Behaviour κ
  | always action => (action, always action)
  | inTurn [] => (.accept, inTurn [])
  | inTurn (action :: actions) => (action, inTurn actions)

end Script

inductive Script (κ : Type) where
  /-- Accepts every event and shows nothing of it. -/
  | silent
  /-- Kinds without a behaviour are accepted. -/
  | byKind (behaviours : List (Event.Kind × Script.Behaviour κ))
deriving Inhabited

namespace Script

variable {κ : Type}

def isSilent : Script κ → Bool
  | silent => true
  | byKind _ => false

/-- The action of the first behaviour for the kind, and the behaviours after it. -/
def nextOf (k : Event.Kind) :
    List (Event.Kind × Behaviour κ) → Action κ × List (Event.Kind × Behaviour κ)
  | [] => (.accept, [])
  | (kind, behaviour) :: behaviours =>
    if kind = k then
      let (action, behaviour) := behaviour.next
      (action, (kind, behaviour) :: behaviours)
    else
      let (action, behaviours) := nextOf k behaviours
      (action, (kind, behaviour) :: behaviours)

/-- The action for a call of this kind, and the script after it. -/
def next (k : Event.Kind) : Script κ → Action κ × Script κ
  | silent => (.accept, silent)
  | byKind behaviours =>
    let (action, behaviours) := nextOf k behaviours
    (action, byKind behaviours)

end Script

end StorageBus
