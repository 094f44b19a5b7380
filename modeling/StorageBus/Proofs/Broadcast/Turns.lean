import StorageBus.Proofs.Roster
import StorageBus.Roster.Broadcast

/-!
# The turns of a broadcast

A broadcast calls one listener after the other. Whatever the calls do to the roster meanwhile, all
that comes between one call and the next is that an unavailable listener's handle is taken off it.

## Main definitions

* `Session.Turn` — one call, with the states in which it began and returned.
* `Session.Turns` — calls one after the other, each from where the one before it ended.
* `Report.tally` — what a report says of turns.

## Main results

* `Session.Turns.callEach_eq` — calling entries is nothing but their turns.
* `Session.Turn.not_mem_next` — an unavailable listener's handle is off the roster after its turn.
-/
namespace StorageBus

variable {L τ : Type}

namespace Session

/-- A call within a broadcast, from its beginning to the moment when it returns. -/
structure Turn (L τ : Type) where
  entry : Entry L
  before : Session L τ
  answer : Except Fault Unit
  after : Session L τ

namespace Turn

variable (t : Turn L τ)

def failed : Bool :=
  match t.answer with
  | .ok () => false
  | .error _ => true

/-- Whether the call failed since the listener is unavailable. -/
def unavailable : Bool :=
  match t.answer with
  | .ok () => false
  | .error fault => fault.isUnavailable

/-- Whether the listener is unavailable while its handle is on the roster. -/
def prunes : Bool := t.unavailable && t.after.roster.contains t.entry.handle

/-- Where the turn ends and the next begins. -/
def next : Session L τ :=
  if t.unavailable then (t.after.unregister t.entry.handle).2 else t.after

@[simp] theorem rest_next : t.next.rest = t.after.rest := by
  unfold next
  split <;> rfl

theorem next_of_available (available : t.unavailable = false) : t.next = t.after := by
  simp [next, available]

theorem roster_next (unavailable : t.unavailable = true) :
    t.next.roster = (t.after.roster.unregister t.entry.handle).2 := by
  rw [next, if_pos unavailable]
  rfl

theorem unavailable_iff : t.unavailable = true ↔
    ∃ fault, t.answer = .error fault ∧ fault.isUnavailable = true := by
  unfold unavailable
  cases t.answer <;> simp

theorem prunes_iff : t.prunes = true ↔
    t.unavailable = true ∧ t.entry.handle ∈ t.after.roster.handles := by
  rw [prunes, Bool.and_eq_true, Roster.contains_iff]

/-- All that a turn takes off the roster is under the handle of an unavailable listener. -/
theorem entries_next (wf : t.after.roster.WellFormed) :
    t.next.roster.entries =
      t.after.roster.entries.filter fun e => ¬ (t.unavailable ∧ e.handle = t.entry.handle) := by
  cases unavailable : t.unavailable with
  | false => simp [t.next_of_available unavailable]
  | true =>
    rw [t.roster_next unavailable, Roster.entries_unregister wf]
    simp

theorem wellFormed_next (wf : t.after.roster.WellFormed) : t.next.roster.WellFormed := by
  cases unavailable : t.unavailable with
  | false =>
    rw [t.next_of_available unavailable]
    exact wf
  | true =>
    rw [t.roster_next unavailable]
    exact wf.unregister _

theorem not_mem_next (unavailable : t.unavailable = true) (wf : t.after.roster.WellFormed) :
    t.entry.handle ∉ t.next.roster.handles := by
  rw [t.roster_next unavailable, Roster.handles_unregister wf]
  simp

end Turn

/-- Calls one after the other, from one state to another. -/
inductive Turns (call : L → Act (Session L τ) (Except Fault Unit)) :
    Session L τ → List (Turn L τ) → Session L τ → Prop
  | nil (s : Session L τ) : Turns call s [] s
  | cons {t : Turn L τ} {ts : List (Turn L τ)} {u : Session L τ}
    (called : call t.entry.listener t.before = .ok t.answer t.after)
    (rest : Turns call t.next ts u) : Turns call t.before (t :: ts) u

theorem Turns.eq_of_nil {call : L → Act (Session L τ) (Except Fault Unit)} {s u : Session L τ}
    (turns : Turns call s [] u) : u = s := by
  cases turns
  rfl

end Session

open Session

/-- The report on some more turns. -/
def Report.tally (ts : List (Turn L τ)) (r : Report) : Report where
  delivered := r.delivered + ts.countP (!·.failed)
  failed := r.failed ++ (ts.filter (·.failed)).map (·.entry.handle)
  pruned := r.pruned + ts.countP (·.prunes)

@[simp] theorem Report.tally_nil (r : Report) : r.tally ([] : List (Turn L τ)) = r := by
  simp [tally]

theorem Report.tally_append (ts us : List (Turn L τ)) (r : Report) :
    r.tally (ts ++ us) = (r.tally ts).tally us := by
  simp [tally, Nat.add_assoc]

namespace Session

theorem Turn.settle_eq (t : Turn L τ) (r : Report) :
    settle t.entry.handle t.answer r t.after = (r.tally [t], t.next) := by
  have taken := Roster.unregister_iff (r := t.after.roster) (h := t.entry.handle)
  obtain ⟨e, before, answer, after⟩ := t
  cases answer with
  | ok => simp [settle, Report.tally, Turn.failed, Turn.prunes, Turn.unavailable, Turn.next,
      Report.accept]
  | error fault =>
    cases unavailable : fault.isUnavailable with
    | false => simp [settle, unavailable, Report.tally, Turn.failed, Turn.prunes, Turn.unavailable,
        Turn.next, Report.fail]
    | true =>
      rw [← Roster.contains_iff, ← Bool.eq_iff_iff] at taken
      simp [settle, unavailable, Report.tally, Turn.failed, Turn.prunes, Turn.unavailable,
        Turn.next, Report.fail, unregister, Part.lift, rosterPart, taken]
      split <;> simp_all

theorem callEach_cons {call : L → Act (Session L τ) (Except Fault Unit)} {x : Entry L}
    {s t : Session L τ} {answer : Except Fault Unit} (called : call x.listener s = .ok answer t)
    (entries : List (Entry L)) (report : Report) :
    callEach call (x :: entries) report s = callEach call entries
      (settle x.handle answer report t).1 (settle x.handle answer report t).2 := by
  rw [callEach, Act.bind_apply called]
  rfl

theorem Turns.callEach_eq {call : L → Act (Session L τ) (Except Fault Unit)} {s u : Session L τ}
    {ts : List (Turn L τ)} (turns : Turns call s ts u) (r : Report) :
    callEach call (ts.map (·.entry)) r s = .ok (r.tally ts) u := by
  induction turns generalizing r with
  | nil s =>
    rw [Report.tally_nil]
    rfl
  | @cons t ts u called rest ih =>
    have split : r.tally (t :: ts) = (r.tally [t]).tally ts := r.tally_append [t] ts
    rw [List.map_cons, callEach_cons called, t.settle_eq, split]
    exact ih _

end Session

end StorageBus
