import StorageBus.Handle
import StorageBus.Table

/-!
# Rosters

The registered listeners, at most one for a handle, in the order of their registration. Entries sit
in numbered slots that are used again when they fall vacant; a list of slot numbers keeps the order.

## Main definitions

* `Roster.register`, `Roster.unregister`, `Roster.clear`, `Roster.sweep` — changes.
* `Roster.entries` — the entries in order, which is what a roster is about.
-/
namespace StorageBus

/-- A listener under its handle. -/
structure Entry (L : Type) where
  handle : Handle
  listener : L
deriving DecidableEq, Repr

structure Roster (L : Type) where
  slots : Table Nat (Entry L) := []
  /-- The occupied slots, the earliest registration first. -/
  order : List Nat := []
deriving Repr

namespace Roster

variable {L : Type}

/-! ## Views -/

def entryAt? (r : Roster L) (slot : Nat) : Option (Entry L) := Table.find? slot r.slots

def entries (r : Roster L) : List (Entry L) := r.order.filterMap r.entryAt?

def handles (r : Roster L) : List Handle := r.entries.map (·.handle)

def length (r : Roster L) : Nat := r.order.length

/-- Whether the slot holds the handle. -/
def holds (r : Roster L) (h : Handle) (slot : Nat) : Bool := (r.entryAt? slot).any (·.handle == h)

/-- Where the handle comes in the order. -/
def position? (r : Roster L) (h : Handle) : Option Nat := r.order.findIdx? (r.holds h)

def contains (r : Roster L) (h : Handle) : Bool := (r.position? h).isSome

/-! ## Registration -/

/-- Registers in the given slot, which has to be vacant, unless the handle is registered. -/
def registerAt (slot : Nat) (h : Handle) (l : L) (r : Roster L) : Bool × Roster L :=
  if r.contains h then (false, r)
  else (true, { slots := (slot, ⟨h, l⟩) :: r.slots, order := r.order ++ [slot] })

/-- The lowest vacant slot. -/
def vacant (r : Roster L) : Nat :=
  ((List.range r.slots.length).find? fun slot => (r.entryAt? slot).isNone).getD r.slots.length

/-- Registers unless the handle is registered, and says whether it did. -/
def register (h : Handle) (l : L) (r : Roster L) : Bool × Roster L := r.registerAt r.vacant h l

/-- The roster without the entry at a place in the order, of which the slot falls vacant. -/
def removeAt (position : Nat) (r : Roster L) : Roster L :=
  match r.order[position]? with
  | none => r
  | some slot => { slots := Table.drop slot r.slots, order := r.order.eraseIdx position }

/-- Removes the handle, and says whether it was registered. -/
def unregister (h : Handle) (r : Roster L) : Bool × Roster L :=
  match r.position? h with
  | none => (false, r)
  | some position => (true, r.removeAt position)

/-- Removes everything, and says how much that was. -/
def clear (r : Roster L) : Nat × Roster L := (r.length, {})

/-! ## Sweeping -/

theorem length_removeAt {position : Nat} {r : Roster L} (h : position < r.order.length) :
    (r.removeAt position).order.length + 1 = r.order.length := by
  simp only [removeAt, List.getElem?_eq_getElem h, List.length_eraseIdx_of_lt h]
  omega

/-- Goes through the order from a place on and removes what is not live, on top of what is removed
already. -/
def sweepFrom (live : Handle → Bool) (position removed : Nat) (r : Roster L) : Nat × Roster L :=
  match _h : r.order[position]? with
  | none => (removed, r)
  | some slot =>
    if (r.entryAt? slot).all (live ·.handle) then sweepFrom live (position + 1) removed r
    else sweepFrom live position (removed + 1) (r.removeAt position)
termination_by r.order.length - position
decreasing_by
  · have := (List.getElem?_eq_some_iff.mp _h).1
    omega
  · have := (List.getElem?_eq_some_iff.mp _h).1
    have := length_removeAt this
    omega

/-- Removes every entry whose handle is not live, and says how many those were. -/
def sweep (live : Handle → Bool) (r : Roster L) : Nat × Roster L := r.sweepFrom live 0 0

end Roster

end StorageBus
