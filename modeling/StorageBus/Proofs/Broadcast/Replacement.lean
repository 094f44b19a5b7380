import StorageBus.Proofs.Broadcast.Conduct

/-!
# Registrations that are replaced during a broadcast

A broadcast calls the listeners that it found, but takes the unavailable ones off the roster by
their handles. Between the two somebody else may have been registered under the handle. So it is
the listener that was called who goes, unless the handle has been registered anew since the
broadcast began; then it is whoever was registered.

## Main definitions

* `Conduct.replacing` — a listener that puts another one in the place of its neighbour.

## Main results

* `Conduct.prunes_own_unless_renewed` — what a broadcast removes after each of its calls.
* `Conduct.prunes_replacement` — a broadcast that removes a listener which it never called.
-/
namespace StorageBus

open Roster Session

variable {L σ : Type}

namespace Session

/-- Who is on the roster under the handle of an entry that it had before. -/
theorem Passing.under {done : List (Deed L)} {n : Nat} {s u : Chronicled L σ}
    (passing : Passing done n s u) (wf : s.roster.WellFormed) {was e : Entry L}
    (before : was ∈ s.roster.entries) (now : e ∈ u.roster.entries) (same : e.handle = was.handle) :
    (¬ Renewed was.handle done → e = was) ∧
      (Renewed was.handle done → .registered e true ∈ done) := by
  constructor
  · intro never
    have stayed : e ∈ s.roster.entries := passing.kept e now (same ▸ never)
    exact wf.eq_of_handle stayed before same
  · intro again
    exact passing.renewed e now (same ▸ again)

end Session

/-- After each call of a broadcast the roster is as the call has left it, but for the handle of an
unavailable listener. Under that handle it has the very entry that was called, if nobody has been
registered under it since the broadcast began, and somebody who has been registered since then
otherwise. -/
theorem Conduct.prunes_own_unless_renewed (call : L → Conduct L σ) {s : Chronicled L σ}
    (wf : s.roster.WellFormed) :
    ∃ report u ts, Session.broadcast (fun l => (call l).run) s = .ok report u ∧
      Turns (fun l => (call l).run) s ts u ∧ ts.map (·.entry) = s.roster.entries ∧
      ∀ t ∈ ts, t.next.roster.entries = t.after.roster.entries.filter
          (fun e => ¬ (t.unavailable ∧ e.handle = t.entry.handle)) ∧
        ∃ since, t.after.rest.deeds = s.rest.deeds ++ since ∧
          ∀ e ∈ t.after.roster.entries, e.handle = t.entry.handle →
            (¬ Renewed t.entry.handle since → e = t.entry) ∧
            (Renewed t.entry.handle since → .registered e true ∈ since) := by
  obtain ⟨ts, u, held⟩ := exists_held (fun l => (call l).run_returns) s.roster.entries wf
  refine ⟨_, u, ts, held.broadcast_eq, held.turns, held.entries, fun t mem => ?_⟩
  obtain ⟨since, n, passing⟩ := held.within t mem
  have called : t.entry ∈ s.roster.entries := by
    rw [← held.entries]
    exact List.mem_map_of_mem mem
  refine ⟨t.entries_next passing.wellFormed, since, passing.deeds, fun e now same => ?_⟩
  exact passing.under wf called now same

/-- The first listener takes the one under the handle off the roster and registers a third one
there; the second one is unavailable. -/
def Conduct.replacing (h : Handle) : Nat → Conduct Nat Unit
  | 0 => .unregister h fun _ => .register h 2 fun _ => .answer (.ok ())
  | 1 => .answer (.error (.unavailable h .deadObject))
  | _ => .answer (.ok ())

theorem Conduct.prunes_own_unless_renewed_replacing :
    let f : Handle := ⟨1, none⟩
    let g : Handle := ⟨2, none⟩
    let s : Chronicled Nat Unit := {
      roster := (Roster.register g 1 (Roster.register f 0 {}).2).2
      rest := { rest := () } }
    ∃ report u ts, Session.broadcast (fun l => (replacing g l).run) s = .ok report u ∧
      Turns (fun l => (replacing g l).run) s ts u ∧ ts.map (·.entry) = [⟨f, 0⟩, ⟨g, 1⟩] ∧
      report = ⟨1, [g], 1⟩ ∧
      ∀ t ∈ ts, ∃ since, t.after.rest.deeds = since ∧
        ∀ e ∈ t.after.roster.entries, e.handle = t.entry.handle →
          e = t.entry ∨ .registered e true ∈ since := by
  intro f g s
  have wf : s.roster.WellFormed := (Roster.WellFormed.empty.register _ _).register _ _
  obtain ⟨report, u, ts, ran, turns, entries, each⟩ :=
    Conduct.prunes_own_unless_renewed (replacing g) wf
  have outcome :
      ((Session.broadcast fun l => (replacing g l).run).attempt s).1.toOption =
        some ⟨1, [g], 1⟩ := by
    decide +kernel
  rw [Act.attempt, ran] at outcome
  refine ⟨report, u, ts, ran, turns, entries, Option.some.inj outcome, fun t mem => ?_⟩
  obtain ⟨-, since, deeds, under⟩ := each t mem
  refine ⟨since, deeds, fun e now same => ?_⟩
  by_cases again : Renewed t.entry.handle since
  · exact .inr ((under e now same).2 again)
  · exact .inl ((under e now same).1 again)

/-- The third listener is registered while the broadcast goes on, is never called, and is removed
since the second one is unavailable. -/
theorem Conduct.prunes_replacement :
    let f : Handle := ⟨1, none⟩
    let g : Handle := ⟨2, none⟩
    let s : Chronicled Nat Unit := {
      roster := (Roster.register g 1 (Roster.register f 0 {}).2).2
      rest := { rest := () } }
    let ended := (Session.broadcast fun l => (replacing g l).run).attempt s
    ended.1.toOption = some ⟨1, [g], 1⟩ ∧
      ended.2.rest.deeds = [.unregistered g true, .registered ⟨g, 2⟩ true] ∧
      ⟨g, 2⟩ ∉ s.roster.entries ∧ ended.2.roster.entries = [⟨f, 0⟩] := by
  decide +kernel

end StorageBus
