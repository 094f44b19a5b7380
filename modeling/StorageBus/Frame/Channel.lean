import StorageBus.Frame.Sink

/-!
# Channels

A sink with limits: how much it takes at once, how much in all, and what happens when it takes
nothing. What it took can be looked at and taken away, also after the channel was broken, which
ends writing for good.

## Main definitions

* `Channel`, `Channel.sink`.
* `Channel.contents`, `Channel.drain` — the bytes it took.
* `Channel.cut` — breaking it.
-/
namespace StorageBus

structure Channel where
  /-- How many more bytes it has room for; none if there is no limit. -/
  room : Option Nat := none
  /-- The most bytes it takes in one write; none if there is no limit. -/
  stride : Option Nat := none
  /-- What a write fails with when nothing can be taken; none if it then takes zero bytes. -/
  stuck : Option IoError := none
  /-- How many of the next writes are interrupted. -/
  interrupts : Nat := 0
  /-- What flushing fails with. -/
  flushError : Option IoError := none
  /-- What every write fails with once nobody can read any more. -/
  broken : Option IoError := none
  /-- The bytes of each write, the latest first. -/
  taken : List Bytes := []
deriving DecidableEq, Repr

namespace Channel

/-- As many of the bytes as fit a limit. -/
def within (limit : Option Nat) (bs : Bytes) : Bytes :=
  match limit with
  | none => bs
  | some n => bs.take n

def write (bs : Bytes) (c : Channel) : Took × Channel :=
  match c.broken with
  | some e => (.failed e, c)
  | none =>
    if c.interrupts ≠ 0 then (.interrupted, { c with interrupts := c.interrupts - 1 })
    else
      let front := within c.room (within c.stride bs)
      if front = [] then
        match c.stuck with
        | some e => (.failed e, c)
        | none => (.bytes 0, c)
      else
        let count := front.length
        (.bytes count, { c with room := c.room.map (· - count), taken := front :: c.taken })

def sink : Sink Channel where
  write := write
  flush c := (c.flushError, c)
  patience c := c.interrupts
  patience_lt := by
    intro bs s t h
    simp only [write] at h
    split at h
    · simp at h
    · split at h
      · simp only [Prod.mk.injEq, true_and] at h
        subst h
        simp only
        omega
      · split at h
        · split at h <;> simp at h
        · simp at h

/-- All bytes it took and still holds, the earliest first. -/
def contents (c : Channel) : Bytes := c.taken.reverse.flatten

/-- Takes the contents away, which makes room for as many bytes. -/
def drain (c : Channel) : Bytes × Channel :=
  let bytes := c.contents
  (bytes, { c with room := c.room.map (· + bytes.length), taken := [] })

/-- The channel after the reading side has ended: what it holds can still be taken away. -/
def cut (c : Channel) : Channel := { c with broken := some { kind := .brokenPipe } }

def isCut (c : Channel) : Bool := c.broken.isSome

@[simp] theorem isCut_cut (c : Channel) : c.cut.isCut = true := rfl

@[simp] theorem isCut_drain (c : Channel) : c.drain.2.isCut = c.isCut := rfl

@[simp] theorem contents_drain (c : Channel) : c.drain.2.contents = [] := rfl

end Channel

end StorageBus
