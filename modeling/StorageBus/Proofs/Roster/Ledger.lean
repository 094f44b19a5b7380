import StorageBus.Proofs.Roster.Guarded

/-!
# Rosters as ledgers

Whatever a roster is asked, it answers as a ledger does: a plain list of entries, the earliest
registration first, no two of them under one handle. Newcomers may be given any vacant slot, also
one that was occupied before. No look into a slot ever fails.

## Main definitions

* `Roster.Request`, `Roster.Answer` — what a roster is asked, and what it says.
* `Roster.ask`, `Guarded.ask`, `Ledger.ask` — the same request to a roster, to a roster that looks
  before it touches a slot, and to a ledger.
* `Roster.Offered` — every newcomer is offered a vacant slot.

## Main results

* `Roster.WellFormed.ask` — one request.
* `Roster.answers_as_ledger` — any requests, from an empty roster on.
-/
namespace StorageBus

variable {L : Type}

/-- Whether the owner of a handle lives by any test on processes, as `Handle.isLive` is by one; an
owner that is not known does. -/
def Handle.livesBy (alive : Int32 → Bool) (h : Handle) : Bool := h.pid.all alive

namespace Roster

/-! ## Requests -/

inductive Request (L : Type) where
  /-- Registration, in the given slot if there has to be a new one. -/
  | register (slot : Nat) (h : Handle) (l : L)
  | unregister (h : Handle)
  | contains (h : Handle)
  | length
  | handles
  | entries
  | clear
  | sweep

inductive Answer (L : Type) where
  | flag (b : Bool)
  | count (n : Nat)
  | handles (hs : List Handle)
  | entries (es : List (Entry L))
deriving DecidableEq

/-- A roster is asked. -/
def ask (alive : Int32 → Bool) : Request L → StateM (Roster L) (Answer L)
  | .register slot h l => fun r => (r.registerAt slot h l).map .flag id
  | .unregister h => fun r => (r.unregister h).map .flag id
  | .contains h => fun r => (.flag (r.contains h), r)
  | .length => fun r => (.count r.length, r)
  | .handles => fun r => (.handles r.handles, r)
  | .entries => fun r => (.entries r.entries, r)
  | .clear => fun r => r.clear.map .count id
  | .sweep => fun r => (r.sweep (·.livesBy alive)).map .count id

/-- A roster is asked, and says nothing once it looks into a vacant slot. -/
def Guarded.ask (alive : Int32 → Bool) : Request L → StateT (Roster L) Option (Answer L)
  | .register slot h l => fun r => (registerAt slot h l r).map (·.map .flag id)
  | .unregister h => fun r => (unregister h r).map (·.map .flag id)
  | .contains h => fun r => (position r h r.order).map fun place => (.flag place.isSome, r)
  | .length => fun r => some (.count r.order.length, r)
  | .handles => fun r => (entries r).map fun es => (.handles (es.map (·.handle)), r)
  | .entries => fun r => (entries r).map fun es => (.entries es, r)
  | .clear => fun r => some (.count r.order.length, {})
  | .sweep => fun r => (sweepFrom (·.livesBy alive) 0 0 r).map (·.map .count id)

end Roster

open Roster

/-! ## Ledgers -/

/-- Entries, the earliest registration first. -/
abbrev Ledger (L : Type) := List (Entry L)

namespace Ledger

def contains (es : Ledger L) (h : Handle) : Bool := es.any (·.handle == h)

/-- Puts an entry at the end, unless there is one under the handle. -/
def register (h : Handle) (l : L) (es : Ledger L) : Bool × Ledger L :=
  if es.contains h then (false, es) else (true, es ++ [⟨h, l⟩])

/-- Takes the entry under the handle out. -/
def unregister (h : Handle) (es : Ledger L) : Bool × Ledger L :=
  (es.contains h, es.eraseP (·.handle == h))

/-- A ledger is asked. -/
def ask (alive : Int32 → Bool) : Request L → StateM (Ledger L) (Answer L)
  | .register _ h l => fun es => (es.register h l).map .flag id
  | .unregister h => fun es => (es.unregister h).map .flag id
  | .contains h => fun es => (.flag (es.contains h), es)
  | .length => fun es => (.count (List.length es), es)
  | .handles => fun es => (.handles (List.map (·.handle) es), es)
  | .entries => fun es => (.entries es, es)
  | .clear => fun es => (.count (List.length es), [])
  | .sweep => fun es =>
    (.count (List.countP (!·.handle.livesBy alive) es), List.filter (·.handle.livesBy alive) es)

end Ledger

namespace Roster

variable {r : Roster L}

/-! ## One request -/

theorem contains_entries (r : Roster L) (h : Handle) :
    Ledger.contains r.entries h = r.contains h := by
  rw [Bool.eq_iff_iff, contains_iff, Ledger.contains, handles]
  simp

theorem WellFormed.eraseP_entries (wf : r.WellFormed) (h : Handle) :
    r.entries.eraseP (·.handle == h) = (r.unregister h).2.entries := by
  rw [entries_unregister wf]
  have distinct := wf.handles_nodup
  rw [handles] at distinct
  generalize r.entries = es at distinct
  induction es with
  | nil => rfl
  | cons e es ih =>
    simp only [List.map_cons, List.nodup_cons, List.mem_map, not_exists, not_and] at distinct
    obtain ⟨unlike, distinct⟩ := distinct
    by_cases this : e.handle = h
    · subst this
      have others : ∀ x ∈ es, x.handle ≠ e.handle := unlike
      simpa using (List.filter_eq_self.mpr fun x mem => decide_eq_true (others x mem)).symm
    · simp [this, ih distinct]

/-- A newcomer is offered a vacant slot. -/
def Vacant : Request L → Roster L → Prop
  | .register slot h _, r => h ∉ r.handles → r.entryAt? slot = none
  | .unregister _, _ | .contains _, _ | .length, _ | .handles, _ | .entries, _ | .clear, _
  | .sweep, _ => True

/-- The roster stays well-formed, no look into a slot fails, and the ledger of its entries says and
becomes the same. -/
theorem WellFormed.ask (wf : r.WellFormed) (alive : Int32 → Bool) {q : Request L}
    (vacant : Vacant q r) :
    (r.ask alive q).2.WellFormed ∧ Guarded.ask alive q r = some (r.ask alive q) ∧
      Ledger.ask alive q r.entries = ((r.ask alive q).1, (r.ask alive q).2.entries) := by
  cases q with
  | register slot h l =>
    have newcomer : h ∉ r.handles → r.entryAt? slot = none := vacant
    refine ⟨wf.registerAt newcomer l, ?_, ?_⟩
    · simp [Guarded.ask, Guarded.registerAt_eq wf, Roster.ask]
    · by_cases known : h ∈ r.handles
      · simp [Ledger.ask, Ledger.register, contains_entries, contains_iff.mpr known, Roster.ask,
          Roster.registerAt]
      · have entries := entries_registerAt wf known (newcomer known) l
        have unlisted : r.contains h = false := by
          rwa [← Bool.not_eq_true, contains_iff]
        have accepted : (r.registerAt slot h l).1 = true := by
          simp [Roster.registerAt, unlisted]
        simp [Ledger.ask, Ledger.register, contains_entries, unlisted, Roster.ask, entries,
          accepted]
  | unregister h =>
    refine ⟨wf.unregister h, ?_, ?_⟩
    · simp [Guarded.ask, Guarded.unregister_eq wf, Roster.ask]
    · have known : (r.unregister h).1 = r.contains h := by
        rw [Bool.eq_iff_iff, unregister_iff, contains_iff]
      simp [Ledger.ask, Ledger.unregister, contains_entries, wf.eraseP_entries, Roster.ask, known]
  | contains h =>
    refine ⟨wf, ?_, ?_⟩
    · simp [Guarded.ask, Guarded.position_eq wf, Roster.ask, Roster.contains]
    · simp [Ledger.ask, contains_entries, Roster.ask]
  | length => exact ⟨wf, rfl, by simp [Ledger.ask, Roster.ask, Roster.length, wf.length_entries]⟩
  | handles =>
    exact ⟨wf, by simp [Guarded.ask, Guarded.entries_eq wf, Roster.ask, Roster.handles], rfl⟩
  | entries => exact ⟨wf, by simp [Guarded.ask, Guarded.entries_eq wf, Roster.ask], rfl⟩
  | clear =>
    refine ⟨.empty, rfl, ?_⟩
    simp only [Ledger.ask, wf.length_entries]
    rfl
  | sweep =>
    refine ⟨wf.sweep _, ?_, ?_⟩
    · simp [Guarded.ask, Guarded.sweepFrom_eq wf, Roster.ask, Roster.sweep]
    · simp [Ledger.ask, Roster.ask, entries_sweep wf, count_sweep wf]

/-! ## Any requests -/

/-- Whenever one of these requests is made, a newcomer is offered a vacant slot. -/
def Offered (alive : Int32 → Bool) : List (Request L) → Roster L → Prop
  | [], _ => True
  | q :: qs, r => Vacant q r ∧ Offered alive qs (r.ask alive q).2

/-- What many requests come to is what the first comes to and then the others. -/
theorem mapM_cons_apply {S A Q : Type} (f : Q → StateM S A) (q : Q) (qs : List Q) (s : S) :
    (q :: qs).mapM f s =
      ((f q s).1 :: (qs.mapM f (f q s).2).1, (qs.mapM f (f q s).2).2) := by
  rw [List.mapM_cons]
  rfl

theorem mapM_cons_some {S A Q : Type} {f : Q → StateT S Option A} {q : Q} {qs : List Q} {s : S}
    {first : A × S} {others : List A × S} (h : f q s = some first)
    (g : qs.mapM f first.2 = some others) :
    (q :: qs).mapM f s = some (first.1 :: others.1, others.2) := by
  rw [List.mapM_cons]
  simp only [bind, StateT.bind, h, Option.bind_some, g]
  rfl

theorem WellFormed.askEach (wf : r.WellFormed) (alive : Int32 → Bool) {asked : List (Request L)}
    (offered : Offered alive asked r) :
    let after := asked.mapM (Roster.ask alive) r
    after.2.WellFormed ∧ asked.mapM (Guarded.ask alive) r = some after ∧
      asked.mapM (Ledger.ask alive) r.entries = (after.1, after.2.entries) := by
  induction asked generalizing r with
  | nil => exact ⟨wf, rfl, rfl⟩
  | cons q asked ih =>
    obtain ⟨vacant, offered⟩ := offered
    obtain ⟨wf', guarded, ledger⟩ := wf.ask alive vacant
    obtain ⟨wf'', guarded', ledger'⟩ := ih wf' offered
    intro after
    have split : after = _ := mapM_cons_apply (Roster.ask alive) q asked r
    rw [split]
    refine ⟨wf'', mapM_cons_some guarded guarded', ?_⟩
    rw [mapM_cons_apply, ledger, ledger']

/-- Whatever slots newcomers are given, as long as these are vacant. -/
theorem answers_as_ledger (alive : Int32 → Bool) (asked : List (Request L))
    (offered : Offered alive asked {}) :
    let after := asked.mapM (ask alive) {}
    asked.mapM (Guarded.ask alive) {} = some after ∧
      asked.mapM (Ledger.ask alive) [] = (after.1, after.2.entries) ∧ after.2.WellFormed ∧
      ((after.2.sweep (·.livesBy alive)).2.sweep (·.livesBy alive)).1 = 0 := by
  obtain ⟨wf, guarded, ledger⟩ := WellFormed.empty.askEach alive offered
  refine ⟨guarded, ledger, wf, ?_⟩
  rw [count_sweep (wf.sweep _), entries_sweep wf]
  simp

/-- A slot that fell vacant is used again, behind an entry that was registered later. -/
theorem answers_as_ledger_reusing :
    let a : Handle := ⟨1, none⟩
    let b : Handle := ⟨2, some 7⟩
    let c : Handle := ⟨3, some 8⟩
    let asked : List (Request String) := [.register 0 a "a", .register 1 b "b", .register 2 b "b",
      .unregister a, .register 0 c "c", .handles, .sweep]
    let after := asked.mapM (ask (· == 7)) {}
    Offered (· == 7) asked {} ∧ asked.mapM (Guarded.ask (· == 7)) {} = some after ∧
      after.1 = [.flag true, .flag true, .flag false, .flag true, .flag true, .handles [b, c],
        .count 1] ∧ after.2.entries = [⟨b, "b"⟩] := by
  intro a b c asked after
  have offered : Offered (· == 7) asked {} :=
    ⟨fun _ => rfl, fun _ => rfl, fun _ => rfl, trivial, fun _ => rfl, trivial, trivial, trivial⟩
  obtain ⟨guarded, ledger, -⟩ := answers_as_ledger (· == 7) asked offered
  have said : asked.mapM (Ledger.ask (· == 7)) [] = ([.flag true, .flag true, .flag false,
    .flag true, .flag true, .handles [b, c], .count 1], [⟨b, "b"⟩]) := rfl
  obtain ⟨answers, entries⟩ := Prod.mk.inj (said.symm.trans ledger)
  exact ⟨offered, guarded, answers.symm, entries.symm⟩

end Roster

end StorageBus
