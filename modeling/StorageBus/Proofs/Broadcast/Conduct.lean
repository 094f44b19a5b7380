import StorageBus.Proofs.Broadcast.Turns
import StorageBus.Proofs.Roster.Guarded

/-!
# Listeners that act on the roster

Before it answers, a listener may register and unregister others, clear or sweep the roster that it
is on, and hold broadcasts of its own, in which listeners act in the same way. A broadcast goes
through all of that: it calls whoever was registered when it began, once and in order, and no
registration is lost or counted twice.

## Main definitions

* `Conduct`, `Conduct.run` — what a listener does until it answers.
* `Roster.Deed`, `Chronicle` — what was done to a roster, and a record of it.
* `Roster.arrivals`, `Roster.departures` — how many registrations came about and ended by that.
* `Session.Passing` — what some deeds leave of a roster, and what they bring.

## Main results

* `Conduct.run_returns` — every conduct comes to an answer.
* `Session.exists_held` — a broadcast has a turn for every entry.
* `Conduct.broadcast_reentrant` — what a broadcast reports, and the account of a whole run.
-/
namespace StorageBus

variable {L σ α : Type}

/-! ## Records -/

namespace Roster

/-- Something that was done to a roster, and what it came to. -/
inductive Deed (L : Type) where
  | registered (e : Entry L) (accepted : Bool)
  | unregistered (h : Handle) (known : Bool)
  | cleared (count : Nat)
  | swept (count : Nat)
  | told (report : Report)
deriving DecidableEq

/-- The registrations that came about by a deed. -/
def Deed.arrivals : Deed L → Nat
  | .registered _ accepted => accepted.toNat
  | .unregistered _ _ | .cleared _ | .swept _ | .told _ => 0

/-- The registrations that ended by a deed. -/
def Deed.departures : Deed L → Nat
  | .registered _ _ => 0
  | .unregistered _ known => known.toNat
  | .cleared count | .swept count => count
  | .told report => report.pruned

def arrivals : List (Deed L) → Nat
  | [] => 0
  | d :: ds => d.arrivals + arrivals ds

def departures : List (Deed L) → Nat
  | [] => 0
  | d :: ds => d.departures + departures ds

@[simp] theorem arrivals_append (ds es : List (Deed L)) :
    arrivals (ds ++ es) = arrivals ds + arrivals es := by
  induction ds with
  | nil => simp [arrivals]
  | cons d ds ih => simp [arrivals, ih, Nat.add_assoc]

@[simp] theorem departures_append (ds es : List (Deed L)) :
    departures (ds ++ es) = departures ds + departures es := by
  induction ds with
  | nil => simp [departures]
  | cons d ds ih => simp [departures, ih, Nat.add_assoc]

/-- Whether somebody was registered under the handle. -/
def Renewed (h : Handle) (ds : List (Deed L)) : Prop :=
  ∃ e, .registered e true ∈ ds ∧ e.handle = h

/-! ### What goes off a roster -/

/-- One entry is off the roster, if the handle was on it. -/
theorem length_unregister (r : Roster L) (h : Handle) :
    (r.unregister h).2.length + (r.unregister h).1.toNat = r.length := by
  by_cases known : h ∈ r.handles
  · obtain ⟨position, slot, found, named, -⟩ := exists_position known
    have shorter := length_removeAt (List.getElem?_eq_some_iff.mp named).1
    simpa [Roster.unregister, found, Roster.length] using shorter
  · simp [unregister_of_not_mem known]

theorem unregister_subset {r : Roster L} (wf : r.WellFormed) (h : Handle) :
    (r.unregister h).2.entries ⊆ r.entries := by
  rw [entries_unregister wf]
  exact List.filter_subset_self _

theorem length_sweep {r : Roster L} (wf : r.WellFormed) (live : Handle → Bool) :
    (r.sweep live).2.length + (r.sweep live).1 = r.length := by
  have all := r.entries.length_eq_countP_add_countP (live ·.handle)
  simp only [Roster.length, ← (wf.sweep live).length_entries, ← wf.length_entries,
    entries_sweep wf, count_sweep wf, all, List.countP_eq_length_filter]
  simp

theorem sweep_subset {r : Roster L} (wf : r.WellFormed) (live : Handle → Bool) :
    (r.sweep live).2.entries ⊆ r.entries := by
  rw [entries_sweep wf]
  exact List.filter_subset_self _

end Roster

open Roster

/-- What is around a roster of which a record is kept: the deeds, the earliest first, and the state
that listeners act on. -/
structure Chronicle (L σ : Type) where
  deeds : List (Deed L) := []
  rest : σ

abbrev Chronicled (L σ : Type) := Session L (Chronicle L σ)

namespace Session

def note (d : Deed L) (s : Chronicled L σ) : Chronicled L σ :=
  { s with rest := { s.rest with deeds := s.rest.deeds ++ [d] } }

/-- An operation that is recorded when it is done. -/
def recording (deed : α → Deed L) (op : Act (Chronicled L σ) α) : Act (Chronicled L σ) α := do
  let outcome ← op
  modify (note (deed outcome))
  return outcome

theorem recording_of_ok {op : Act (Chronicled L σ) α} {s t : Chronicled L σ} {outcome : α}
    (done : op s = .ok outcome t) (deed : α → Deed L) :
    recording deed op s = .ok outcome (note (deed outcome) t) := by
  rw [recording, Act.bind_apply done]
  rfl

end Session

/-! ## Conduct -/

/-- What a listener does in a call until it answers. Whatever it does next may depend on what came
before. -/
inductive Conduct (L σ : Type) where
  | answer (a : Except Fault Unit)
  /-- Changes the state around the roster, and goes on with what that was. -/
  | around (f : σ → σ) (next : σ → Conduct L σ)
  /-- Looks who is on the roster. -/
  | look (next : List (Entry L) → Conduct L σ)
  | register (h : Handle) (l : L) (next : Bool → Conduct L σ)
  | unregister (h : Handle) (next : Bool → Conduct L σ)
  | clear (next : Nat → Conduct L σ)
  | sweep (live : Handle → Bool) (next : Nat → Conduct L σ)
  /-- Holds a broadcast, in which every listener has its own conduct. -/
  | broadcast (call : L → Conduct L σ) (next : Report → Conduct L σ)

/-- The listener acts on the roster, and a record is kept of it. -/
def Conduct.run : Conduct L σ → Act (Chronicled L σ) (Except Fault Unit)
  | .answer a => return a
  | .around f next => do
    let was := (← get).rest.rest
    modify fun s => { s with rest := { s.rest with rest := f was } }
    (next was).run
  | .look next => do
    (next (← get).roster.entries).run
  | .register h l next => do
    let accepted ← Session.recording (.registered ⟨h, l⟩) (modifyGet (Session.register h l))
    (next accepted).run
  | .unregister h next => do
    let known ← Session.recording (.unregistered h) (modifyGet (Session.unregister h))
    (next known).run
  | .clear next => do
    let count ← Session.recording .cleared (modifyGet (Session.rosterPart.lift Roster.clear))
    (next count).run
  | .sweep live next => do
    let count ← Session.recording .swept
      (modifyGet (Session.rosterPart.lift (Roster.sweep live)))
    (next count).run
  | .broadcast call next => do
    let report ← Session.recording .told (Session.broadcast fun l => (call l).run)
    (next report).run

namespace Session

/-! ## From one state to another -/

/-- What deeds make of a session. So many registrations were ended by broadcasts that are not over
and have not been recorded yet. Who is on the roster was on it before, unless somebody has been
registered under the handle meanwhile. -/
structure Passing (done : List (Deed L)) (pruned : Nat) (s t : Chronicled L σ) : Prop where
  wellFormed : t.roster.WellFormed
  deeds : t.rest.deeds = s.rest.deeds ++ done
  balance : t.roster.length + departures done + pruned = s.roster.length + arrivals done
  renewed : ∀ e ∈ t.roster.entries, Renewed e.handle done → .registered e true ∈ done
  kept : ∀ e ∈ t.roster.entries, ¬ Renewed e.handle done → e ∈ s.roster.entries

namespace Passing

variable {done more : List (Deed L)} {m n : Nat} {s t u : Chronicled L σ}

theorem refl (wf : s.roster.WellFormed) : Passing [] 0 s s where
  wellFormed := wf
  deeds := by simp
  balance := rfl
  renewed := by simp [Renewed]
  kept _ mem _ := mem

theorem trans (first : Passing done m s t) (second : Passing more n t u) :
    Passing (done ++ more) (m + n) s u where
  wellFormed := second.wellFormed
  deeds := by simp [first.deeds, second.deeds]
  balance := by
    have := first.balance
    have := second.balance
    simp only [departures_append, arrivals_append]
    omega
  renewed e mem again := by
    by_cases later : Renewed e.handle more
    · exact List.mem_append_right _ (second.renewed e mem later)
    · have earlier : Renewed e.handle done := by grind [Renewed]
      exact List.mem_append_left _ (first.renewed e (second.kept e mem later) earlier)
  kept e mem never := by
    have later : ¬ Renewed e.handle more := by grind [Renewed]
    have earlier : ¬ Renewed e.handle done := by grind [Renewed]
    exact first.kept e (second.kept e mem later) earlier

/-- A change around the roster. -/
theorem around (wf : s.roster.WellFormed) (v : σ) :
    Passing [] 0 s { s with rest := { s.rest with rest := v } } :=
  ⟨wf, by simp, rfl, by simp [Renewed], fun _ mem _ => mem⟩

/-- A deed by which nobody comes onto the roster. -/
theorem noted {r : Roster L} {d : Deed L} (wf : r.WellFormed) (nobody : d.arrivals = 0)
    (balance : r.length + d.departures = s.roster.length)
    (among : r.entries ⊆ s.roster.entries) :
    Passing [d] 0 s (note d { s with roster := r }) := by
  have unrenewed (h : Handle) : ¬ Renewed h [d] := by
    rintro ⟨e, mem, -⟩
    rw [← List.mem_singleton.mp mem] at nobody
    cases nobody
  refine ⟨wf, rfl, ?_, ?_, ?_⟩
  · simp only [departures, arrivals, nobody]
    exact balance
  · intro e _ again
    exact absurd again (unrenewed _)
  · intro e mem _
    exact among mem

theorem registered (wf : s.roster.WellFormed) (h : Handle) (l : L) :
    Passing [.registered ⟨h, l⟩ (s.register h l).1] 0 s
      (note (.registered ⟨h, l⟩ (s.register h l).1) (s.register h l).2) := by
  by_cases known : h ∈ s.roster.handles
  · have refused : s.register h l = (false, s) := by
      simp [register, Part.lift, rosterPart, Roster.register_of_mem known]
    rw [refused]
    exact .noted wf rfl rfl (List.Subset.refl _)
  · have accepted : (s.register h l).1 = true := Roster.register_of_not_mem known l
    have wf' : (s.register h l).2.roster.WellFormed := wf.register h l
    have entries : (s.register h l).2.roster.entries = s.roster.entries ++ [⟨h, l⟩] :=
      Roster.entries_register wf known l
    have others : ∀ e ∈ s.roster.entries, e.handle ≠ h := by
      rintro e mem rfl
      exact known (List.mem_map_of_mem mem)
    refine ⟨wf', rfl, ?_, ?_, ?_⟩
    · have more : (s.register h l).2.roster.length = s.roster.length + 1 := by
        simp only [Roster.length, ← wf'.length_entries, ← wf.length_entries, entries,
          List.length_append, List.length_singleton]
      simpa [accepted, departures, arrivals, Deed.departures, Deed.arrivals, note] using more
    · intro e mem again
      have mem : e ∈ s.roster.entries ++ [⟨h, l⟩] := entries ▸ mem
      grind [Renewed]
    · intro e mem never
      have mem : e ∈ s.roster.entries ++ [⟨h, l⟩] := entries ▸ mem
      grind [Renewed]

end Passing

/-- What an unavailable listener's turn adds to what its call has done. -/
theorem Turn.passing_next {t : Turn L (Chronicle L σ)} (wf : t.after.roster.WellFormed) :
    Passing [] t.prunes.toNat t.after t.next := by
  cases unavailable : t.unavailable with
  | false =>
    have stays : t.prunes = false := by simp [prunes, unavailable]
    rw [t.next_of_available unavailable, stays]
    exact .refl wf
  | true =>
    have roster := t.roster_next unavailable
    have taken : t.prunes = (t.after.roster.unregister t.entry.handle).1 := by
      rw [Bool.eq_iff_iff, prunes_iff, unregister_iff]
      simp [unavailable]
    refine ⟨?_, by simp, ?_, by simp [Renewed], ?_⟩
    · rw [roster]
      exact wf.unregister _
    · rw [roster, taken]
      exact length_unregister _ _
    · intro e mem _
      rw [roster] at mem
      exact unregister_subset wf _ mem

/-! ## Broadcasts -/

/-- A call that comes to an answer, with a record of all it has done. -/
def Returns (act : Act (Chronicled L σ) (Except Fault Unit)) : Prop :=
  ∀ s, s.roster.WellFormed → ∃ answer t done, act s = .ok answer t ∧ Passing done 0 s t

/-- Turns for all entries, with what has been done until any of their calls returned. -/
structure Held (call : L → Act (Chronicled L σ) (Except Fault Unit)) (es : List (Entry L))
    (s : Chronicled L σ) (ts : List (Turn L (Chronicle L σ))) (u : Chronicled L σ) : Prop where
  turns : Turns call s ts u
  entries : ts.map (·.entry) = es
  passing : ∃ done, Passing done (ts.countP (·.prunes)) s u
  within : ∀ t ∈ ts, ∃ since n, Passing since n s t.after

theorem exists_held {call : L → Act (Chronicled L σ) (Except Fault Unit)}
    (returns : ∀ l, Returns (call l)) (es : List (Entry L)) {s : Chronicled L σ}
    (wf : s.roster.WellFormed) : ∃ ts u, Held call es s ts u := by
  induction es generalizing s with
  | nil => exact ⟨[], s, .nil s, rfl, ⟨[], .refl wf⟩, by simp⟩
  | cons e es ih =>
    obtain ⟨answer, after, done, called, passing⟩ := returns e.listener s wf
    let t : Turn L (Chronicle L σ) := ⟨e, s, answer, after⟩
    -- The entry that goes off at the end of the turn belongs to the broadcast, which is not over.
    have begun := passing.trans (Turn.passing_next (t := t) passing.wellFormed)
    obtain ⟨ts, u, turns, entries, ⟨more, later⟩, within⟩ := ih begun.wellFormed
    have count : (t :: ts).countP (·.prunes) = 0 + t.prunes.toNat + ts.countP (·.prunes) := by
      rw [List.countP_cons]
      cases t.prunes <;> simp
      omega
    refine ⟨t :: ts, u, .cons (t := t) called turns, by simp [t, entries], ?_, ?_⟩
    · exact ⟨_, count ▸ begun.trans later⟩
    · intro t' mem
      rcases List.mem_cons.mp mem with rfl | mem
      · exact ⟨done, 0, passing⟩
      · obtain ⟨since, n, passing'⟩ := within t' mem
        exact ⟨_, _, begun.trans passing'⟩

theorem Held.broadcast_eq {call : L → Act (Chronicled L σ) (Except Fault Unit)}
    {s u : Chronicled L σ} {ts : List (Turn L (Chronicle L σ))}
    (held : Held call s.roster.entries s ts u) :
    broadcast call s = .ok (Report.tally ts {}) u := by
  have calls := held.turns.callEach_eq {}
  rw [held.entries] at calls
  exact calls

/-- The registrations that a broadcast has ended are recorded with its report. -/
theorem Passing.told {done : List (Deed L)} {r : Report} {s u : Chronicled L σ}
    (passing : Passing done r.pruned s u) : Passing (done ++ [.told r]) 0 s (note (.told r) u) := by
  have renewed (h : Handle) : Renewed h (done ++ [.told r]) ↔ Renewed h done := by
    simp [Renewed]
  refine ⟨passing.wellFormed, by simp [note, passing.deeds], ?_, ?_, ?_⟩
  · have balance := passing.balance
    simp only [departures_append, arrivals_append, departures, arrivals, Deed.departures,
      Deed.arrivals]
    simp only [note]
    omega
  · intro e mem again
    exact List.mem_append_left _ (passing.renewed e mem ((renewed _).mp again))
  · intro e mem never
    exact passing.kept e mem fun again => never ((renewed _).mpr again)

/-! ## Single operations -/

theorem Returns.after {next : Act (Chronicled L σ) (Except Fault Unit)} (returns : Returns next)
    {done : List (Deed L)} {s t : Chronicled L σ} (passing : Passing done 0 s t) :
    ∃ answer u more, next t = .ok answer u ∧ Passing more 0 s u := by
  obtain ⟨answer, u, more, ran, later⟩ := returns t passing.wellFormed
  exact ⟨answer, u, _, ran, passing.trans later⟩

/-- An operation that is recorded, and what is done after it. -/
theorem Returns.recorded {next : α → Act (Chronicled L σ) (Except Fault Unit)}
    (returns : ∀ v, Returns (next v)) {op : Act (Chronicled L σ) α} {deed : α → Deed L}
    {done : List (Deed L)} {s t : Chronicled L σ} {v : α} (ran : op s = .ok v t)
    (passing : Passing done 0 s (note (deed v) t)) :
    ∃ answer u more, (recording deed op >>= next) s = .ok answer u ∧ Passing more 0 s u := by
  rw [Act.bind_apply (recording_of_ok ran deed)]
  exact (returns v).after passing

end Session

open Session

/-! ## Listeners -/

theorem Conduct.run_returns (c : Conduct L σ) : Returns c.run := by
  induction c with
  | answer a => exact fun s wf => ⟨a, s, [], rfl, .refl wf⟩
  | around f next ih =>
    intro s wf
    exact (ih s.rest.rest).after (.around wf (f s.rest.rest))
  | look next ih => exact fun s wf => ih s.roster.entries s wf
  | register h l next ih =>
    intro s wf
    exact Returns.recorded ih (Act.modifyGet_apply _ s) (.registered wf h l)
  | unregister h next ih =>
    intro s wf
    exact Returns.recorded ih (Act.modifyGet_apply _ s)
      (.noted (wf.unregister h) rfl (length_unregister _ h) (unregister_subset wf h))
  | clear next ih =>
    intro s wf
    exact Returns.recorded ih (Act.modifyGet_apply _ s)
      (.noted .empty rfl (Nat.zero_add _) (List.nil_subset _))
  | sweep live next ih =>
    intro s wf
    exact Returns.recorded ih (Act.modifyGet_apply _ s)
      (.noted (wf.sweep live) rfl (length_sweep wf live) (sweep_subset wf live))
  | broadcast call next ihc ihn =>
    intro s wf
    obtain ⟨ts, u, held⟩ := exists_held ihc s.roster.entries wf
    obtain ⟨done, passing⟩ := held.passing
    have counted : ts.countP (·.prunes) = (Report.tally ts {}).pruned := by simp [Report.tally]
    exact Returns.recorded ihn held.broadcast_eq (counted ▸ passing).told

/-- A broadcast calls those who are registered when it begins, once and in order, and whatever they
do reports of each call; whoever is unavailable is off the roster after its call. In any run from an
empty roster, whoever was registered still is, or has departed once. -/
theorem Conduct.broadcast_reentrant (call : L → Conduct L σ) {s : Chronicled L σ}
    (wf : s.roster.WellFormed) :
    (∃ report u ts, Session.broadcast (fun l => (call l).run) s = .ok report u ∧
      Turns (fun l => (call l).run) s ts u ∧ ts.map (·.entry) = s.roster.entries ∧
      report.delivered + report.failed.length = s.roster.entries.length ∧
      report.failed = (ts.filter (·.failed)).map (·.entry.handle) ∧
      report.pruned = ts.countP (fun t =>
        t.unavailable && t.after.roster.contains t.entry.handle) ∧
      ∀ t ∈ ts, t.unavailable = true → t.entry.handle ∉ t.next.roster.handles) ∧
    ∀ (c : Conduct L σ) (v : σ), ∃ answer t, c.run { rest := { rest := v } } = .ok answer t ∧
      arrivals t.rest.deeds = t.roster.length + departures t.rest.deeds := by
  refine ⟨?_, fun c v => ?_⟩
  · obtain ⟨ts, u, held⟩ := exists_held (fun l => (call l).run_returns) s.roster.entries wf
    refine ⟨_, u, ts, held.broadcast_eq, held.turns, held.entries, ?_, ?_, ?_, ?_⟩
    · have all := ts.length_eq_countP_add_countP (·.failed)
      rw [← held.entries, List.length_map, all]
      simp [Report.tally, List.countP_eq_length_filter, Nat.add_comm]
    · simp [Report.tally]
    · simp only [Report.tally, Nat.zero_add]
      rfl
    · intro t mem unavailable
      obtain ⟨since, n, passing⟩ := held.within t mem
      exact t.not_mem_next unavailable passing.wellFormed
  · obtain ⟨answer, t, done, ran, passing⟩ := c.run_returns { rest := { rest := v } } .empty
    have balance := passing.balance
    refine ⟨answer, t, ran, ?_⟩
    rw [passing.deeds, List.nil_append]
    simpa [Roster.length, eq_comm] using balance

/-- The first of two listeners tells both of something that neither is there for, and registers
another. -/
theorem Conduct.broadcast_reentrant_nested :
    let a : Handle := ⟨1, none⟩
    let b : Handle := ⟨2, none⟩
    let c : Handle := ⟨3, none⟩
    let gone : Conduct Nat Unit := .answer (.error (.unavailable a .deadObject))
    let call : Nat → Conduct Nat Unit
      | 0 => .broadcast (fun _ => gone) fun _ => .register c 2 fun _ => gone
      | _ => .answer (.error (.handler "busy"))
    let s : Chronicled Nat Unit := {
      roster := (Roster.register b 1 (Roster.register a 0 {}).2).2
      rest := { rest := () } }
    ∃ report u ts, Session.broadcast (fun l => (call l).run) s = .ok report u ∧
      Turns (fun l => (call l).run) s ts u ∧ ts.map (·.entry) = [⟨a, 0⟩, ⟨b, 1⟩] ∧
      report = ⟨0, [a, b], 0⟩ ∧ u.roster.handles = [c] ∧
      u.rest.deeds = [.told ⟨0, [a, b], 2⟩, .registered ⟨c, 2⟩ true] := by
  intro a b c gone call s
  have wf : s.roster.WellFormed := (Roster.WellFormed.empty.register _ _).register _ _
  obtain ⟨⟨report, u, ts, ran, turns, entries, -⟩, -⟩ := Conduct.broadcast_reentrant call wf
  have outcome :
      let ended := (Session.broadcast (fun l => (call l).run)).attempt s
      ended.1.toOption = some ⟨0, [a, b], 0⟩ ∧ ended.2.roster.handles = [c] ∧
        ended.2.rest.deeds = [.told ⟨0, [a, b], 2⟩, .registered ⟨c, 2⟩ true] := by
    decide +kernel
  rw [Act.attempt, ran] at outcome
  exact ⟨report, u, ts, ran, turns, entries, Option.some.inj outcome.1, outcome.2⟩

end StorageBus
