import StorageBus.Proofs.Broadcast.Turns
import StorageBus.Proofs.Roster.Guarded
import StorageBus.Publisher

/-!
# Listeners that know nothing of each other

Listeners that leave the roster alone answer by what they themselves were called with. Whatever one
of them answers is nothing to the others: they receive the same calls, stay or go at the same points
and add the same to every report. A run shows that if it is pared down to some of the listeners, for
then it is the run of these alone. A single listener receives every event up to the first that it
answers as unavailable.

## Main definitions

* `Rule`, `Session.following` — answers by the calls received, and listeners that give them.
* `Rule.Hears`, `Rule.Gone` — what such a listener receives, and whether it is gone.
* `Session.Rounds` — the broadcasts of a run with their turns.
* `Session.Pared` — a session without some of its listeners.
* `Session.SameToOthers` — two runs that are the same to all listeners but one.

## Main results

* `Session.Rounds.pared` — a run without some of its listeners.
* `Session.Rounds.alone` — a run with one listener.
* `Session.isolates` — two runs in which one listener gives different answers.
-/
namespace StorageBus

variable {L τ : Type}

/-! ## Rules -/

/-- What a listener answers to a call, by all calls that it has received, this one included. -/
abbrev Rule := List Event → Except Fault Unit

namespace Rule

/-- The last of the calls is answered as unavailable. -/
def Drops (rule : Rule) (calls : List Event) : Prop :=
  ∃ fault, rule calls = .error fault ∧ fault.isUnavailable = true

/-- Of these events the listener receives all up to the first that it answers as unavailable. -/
structure Hears (rule : Rule) (events heard : List Event) : Prop where
  initial : heard <+: events
  stays : ∀ calls, calls <+: heard → calls ≠ [] → calls ≠ heard → ¬ rule.Drops calls
  ends : heard = events ∨ heard ≠ [] ∧ rule.Drops heard

/-- One of the events is answered as unavailable. -/
def Gone (rule : Rule) (events : List Event) : Prop :=
  ∃ calls, calls <+: events ∧ calls ≠ [] ∧ rule.Drops calls

/-- The rule behind some calls. -/
def behind (rule : Rule) (past : List Event) : Rule := fun calls => rule (past ++ calls)

variable {rule : Rule} {e : Event} {events heard : List Event}

theorem Hears.nil (rule : Rule) : rule.Hears [] [] where
  initial := List.prefix_rfl
  stays _ first some := absurd (List.prefix_nil.mp first) some
  ends := .inl rfl

theorem Hears.last (drops : rule.Drops [e]) (events : List Event) :
    rule.Hears (e :: events) [e] where
  initial := by simp
  stays calls first some other := by
    rcases List.prefix_cons_iff.mp first with rfl | ⟨rest, rfl, none⟩
    · exact absurd rfl some
    · rw [List.prefix_nil.mp none] at other
      exact absurd rfl other
  ends := .inr ⟨List.cons_ne_nil e [], drops⟩

theorem Hears.cons (stays : ¬ rule.Drops [e]) (later : (rule.behind [e]).Hears events heard) :
    rule.Hears (e :: events) (e :: heard) where
  initial := (List.prefix_cons_inj e).mpr later.initial
  stays calls first some other := by
    rcases List.prefix_cons_iff.mp first with rfl | ⟨rest, rfl, behind⟩
    · exact absurd rfl some
    · by_cases none : rest = []
      · rwa [none]
      · exact later.stays rest behind none fun same => other (congrArg (e :: ·) same)
  ends := by
    rcases later.ends with all | ⟨-, drops⟩
    · exact .inl (congrArg (e :: ·) all)
    · exact .inr ⟨List.cons_ne_nil e heard, drops⟩

theorem not_gone_nil (rule : Rule) : ¬ rule.Gone [] := by
  rintro ⟨calls, first, some, -⟩
  exact some (List.prefix_nil.mp first)

theorem gone_cons : rule.Gone (e :: events) ↔ rule.Drops [e] ∨ (rule.behind [e]).Gone events := by
  constructor
  · rintro ⟨calls, first, some, drops⟩
    rcases List.prefix_cons_iff.mp first with rfl | ⟨rest, rfl, behind⟩
    · exact absurd rfl some
    · by_cases none : rest = []
      · exact .inl (none ▸ drops)
      · exact .inr ⟨rest, behind, none, drops⟩
  · rintro (drops | ⟨calls, first, -, drops⟩)
    · exact ⟨[e], by simp, List.cons_ne_nil e [], drops⟩
    · exact ⟨e :: calls, (List.prefix_cons_inj e).mpr first, List.cons_ne_nil e calls, drops⟩

end Rule

/-! ## Runs -/

/-- What the turns of one listener add to the report. -/
def Report.shareOf [DecidableEq L] (l : L) (ts : List (Session.Turn L τ)) : Report :=
  Report.tally (ts.filter (·.entry.listener = l)) {}

namespace Session

/-- Who was called, what the answer was, and whether the handle was taken off the roster for it. -/
def Turn.outcome (t : Turn L τ) : Entry L × Except Fault Unit × Bool :=
  (t.entry, t.answer, t.prunes)

/-- A report says nothing more of turns than their outcomes. -/
theorem tally_congr {ts us : List (Turn L τ)} (same : ts.map Turn.outcome = us.map Turn.outcome)
    (r : Report) : Report.tally ts r = Report.tally us r := by
  induction ts generalizing us r with
  | nil => rw [List.map_eq_nil_iff.mp same.symm]
  | cons t ts ih =>
    obtain ⟨u, us, rfl, first, others⟩ := List.map_eq_cons_iff.mp same.symm
    obtain ⟨entry, answer, prunes⟩ : u.entry = t.entry ∧ u.answer = t.answer ∧
        u.prunes = t.prunes := by simpa [Turn.outcome] using first
    have one : Report.tally [t] r = Report.tally [u] r := by
      simp only [Report.tally, List.countP_singleton, List.filter_singleton, Turn.failed,
        answer, prunes]
      split <;> simp [entry]
    have front := Report.tally_append [t] ts r
    have front' := Report.tally_append [u] us r
    rw [List.singleton_append] at front front'
    rw [front, front', one]
    exact ih others.symm _

/-- Broadcasts one after the other, each with the turns of all that are registered then. -/
inductive Rounds (listener : L → Listener (Session L τ)) :
    Session L τ → List Event → List (List (Turn L τ)) → Session L τ → Prop
  | nil (s : Session L τ) : Rounds listener s [] [] s
  | cons {s t u : Session L τ} {e : Event} {es : List Event} {ts : List (Turn L τ)}
    {rounds : List (List (Turn L τ))} (turns : Turns (fun l => listener l e) s ts t)
    (everyone : ts.map (·.entry) = s.roster.entries) (more : Rounds listener t es rounds u) :
    Rounds listener s (e :: es) (ts :: rounds) u

/-- The reports of a run are those on its turns. -/
theorem Rounds.mapM_eq {listener : L → Listener (Session L τ)} {s t : Session L τ}
    {es : List Event} {rounds : List (List (Turn L τ))} (run : Rounds listener s es rounds t) :
    es.mapM (notify listener) s = .ok (rounds.map fun ts => Report.tally ts {}) t := by
  induction run with
  | nil s => rfl
  | @cons s t u e es ts rounds turns everyone more ih =>
    have told : notify listener e s = .ok (Report.tally ts {}) t := by
      have calls := turns.callEach_eq {}
      rw [everyone] at calls
      exact calls
    rw [List.mapM_cons, Act.bind_apply told, Act.bind_apply ih]
    rfl

/-! ## Some of the listeners -/

/-- The calls so far, each with the listener that it went to. -/
abbrev Calls (L : Type) := List (L × Event)

/-- The second session is the first one without the listeners that are not kept. -/
structure Pared (keep : L → Bool) (s s₀ : Session L (Calls L)) : Prop where
  wellFormed : s.roster.WellFormed
  wellFormed₀ : s₀.roster.WellFormed
  entries : s₀.roster.entries = s.roster.entries.filter (keep ·.listener)
  calls : s₀.rest = s.rest.filter (keep ·.1)

/-- A session without some of its listeners. -/
theorem exists_pared (keep : L → Bool) {s : Session L (Calls L)} (wf : s.roster.WellFormed) :
    ∃ s₀, Pared keep s s₀ := by
  let live (h : Handle) : Bool := s.roster.entries.any fun x => x.handle = h && keep x.listener
  refine ⟨⟨(s.roster.sweep live).2, s.rest.filter (keep ·.1)⟩, wf, wf.sweep live, ?_, rfl⟩
  rw [Roster.entries_sweep wf]
  apply List.filter_congr
  intro x mem
  -- nobody else has the handle of the entry
  have only (y) (mem' : y ∈ s.roster.entries) (same : y.handle = x.handle) : y = x :=
    wf.eq_of_handle mem' mem same
  rw [Bool.eq_iff_iff, List.any_eq_true]
  grind

/-! ## Listeners that follow rules -/

variable [DecidableEq L]

/-- The events that a listener was called with. -/
def heardBy (l : L) (calls : Calls L) : List Event := (calls.filter (·.1 = l)).map (·.2)

/-- Listeners that answer by their rules and do nothing else. -/
def following (rules : L → Rule) (l : L) : Listener (Session L (Calls L)) := fun e s =>
  let calls := s.rest ++ [(l, e)]
  .ok (rules l (heardBy l calls)) { s with rest := calls }

variable {keep : L → Bool} {rules rules₀ : L → Rule} {e : Event} {s s₀ u u₀ : Session L (Calls L)}
  {t t₀ : Turn L (Calls L)} {ts ts₀ : List (Turn L (Calls L))}

theorem exists_turns (rules : L → Rule) (e : Event) (es : List (Entry L))
    (s : Session L (Calls L)) :
    ∃ ts u, Turns (fun l => following rules l e) s ts u ∧ ts.map (·.entry) = es := by
  induction es generalizing s with
  | nil => exact ⟨[], s, .nil s, rfl⟩
  | cons x es ih =>
    let calls := s.rest ++ [(x.listener, e)]
    let t : Turn L (Calls L) :=
      ⟨x, s, rules x.listener (heardBy x.listener calls), { s with rest := calls }⟩
    obtain ⟨ts, u, turns, entries⟩ := ih t.next
    have called : following rules t.entry.listener e t.before = .ok t.answer t.after := rfl
    exact ⟨t :: ts, u, .cons called turns, congrArg (x :: ·) entries⟩

theorem exists_rounds (rules : L → Rule) (es : List Event) (s : Session L (Calls L)) :
    ∃ rounds t, Rounds (following rules) s es rounds t := by
  induction es generalizing s with
  | nil => exact ⟨[], s, .nil s⟩
  | cons e es ih =>
    obtain ⟨ts, u, turns, everyone⟩ := exists_turns rules e s.roster.entries s
    obtain ⟨rounds, t, more⟩ := ih u
    exact ⟨ts :: rounds, t, .cons turns everyone more⟩

/-! ## Runs without some of the listeners -/

theorem Turn.of_following
    (called : following rules t.entry.listener e t.before = .ok t.answer t.after) :
    t.answer = rules t.entry.listener (heardBy t.entry.listener t.after.rest) ∧
      t.after = { t.before with rest := t.before.rest ++ [(t.entry.listener, e)] } := by
  obtain ⟨answer, after⟩ := EStateM.Result.ok.inj called
  rw [← answer, ← after]
  exact ⟨rfl, rfl⟩

theorem heardBy_filter (keep : L → Bool) {l : L} (kept : keep l = true) (calls : Calls L) :
    heardBy l (calls.filter (keep ·.1)) = heardBy l calls := by
  have same (call : L × Event) : (decide (call.1 = l) && keep call.1) = decide (call.1 = l) := by
    by_cases own : call.1 = l
    · simp [own, kept]
    · simp [own]
  simp only [heardBy, List.filter_filter, same]

/-- The turn of a listener that is not kept does not show. -/
theorem Pared.unkept (pared : Pared keep t.before s₀)
    (called : following rules t.entry.listener e t.before = .ok t.answer t.after)
    (own : ∀ x ∈ t.before.roster.entries, x.handle = t.entry.handle → x = t.entry)
    (out : keep t.entry.listener = false) : Pared keep t.next s₀ := by
  obtain ⟨-, after⟩ := Turn.of_following called
  have wf : t.after.roster.WellFormed := after ▸ pared.wellFormed
  refine ⟨t.wellFormed_next wf, pared.wellFormed₀, ?_, ?_⟩
  · rw [t.entries_next wf, after, pared.entries, List.filter_filter]
    apply List.filter_congr
    intro x mem
    cases kept : keep x.listener with
    | false => rfl
    | true =>
      have other : x.handle ≠ t.entry.handle := by
        intro same
        rw [own x mem same, out] at kept
        cases kept
      simp [other]
  · rw [t.rest_next, after, pared.calls, List.filter_append]
    simp [out]

/-- The turn of a listener that is kept is the same. -/
theorem Pared.kept (pared : Pared keep t.before t₀.before)
    (called : following rules t.entry.listener e t.before = .ok t.answer t.after)
    (called₀ : following rules₀ t₀.entry.listener e t₀.before = .ok t₀.answer t₀.after)
    (entry : t₀.entry = t.entry) (same : rules₀ t.entry.listener = rules t.entry.listener)
    (own : ∀ x ∈ t.before.roster.entries, x.handle = t.entry.handle → x = t.entry)
    (kept : keep t.entry.listener = true) :
    t₀.outcome = t.outcome ∧ Pared keep t.next t₀.next := by
  obtain ⟨answer, after⟩ := Turn.of_following called
  obtain ⟨answer₀, after₀⟩ := Turn.of_following called₀
  have wf : t.after.roster.WellFormed := after ▸ pared.wellFormed
  have wf₀ : t₀.after.roster.WellFormed := after₀ ▸ pared.wellFormed₀
  have calls : t₀.after.rest = t.after.rest.filter (keep ·.1) := by
    rw [after, after₀, entry, pared.calls, List.filter_append]
    simp [kept]
  have answers : t₀.answer = t.answer := by
    rw [answer, answer₀, entry, same, calls, heardBy_filter keep kept]
  have unavailable : t₀.unavailable = t.unavailable := by
    rw [Turn.unavailable, Turn.unavailable, answers]
  have entries : t₀.after.roster.entries =
      t.after.roster.entries.filter (keep ·.listener) := by
    rw [after, after₀]
    exact pared.entries
  have listed : t₀.after.roster.contains t.entry.handle =
      t.after.roster.contains t.entry.handle := by
    rw [after] at entries ⊢
    rw [Bool.eq_iff_iff, Roster.contains_iff, Roster.contains_iff, Roster.handles, entries,
      Roster.handles, List.mem_map, List.mem_map]
    constructor
    · rintro ⟨x, mem, eq⟩
      exact ⟨x, (List.mem_filter.mp mem).1, eq⟩
    · rintro ⟨x, mem, eq⟩
      obtain rfl := own x mem eq
      exact ⟨t.entry, List.mem_filter.mpr ⟨mem, kept⟩, rfl⟩
  refine ⟨?_, t.wellFormed_next wf, t₀.wellFormed_next wf₀, ?_, ?_⟩
  · rw [Turn.outcome, Turn.outcome, Turn.prunes, Turn.prunes, entry, answers, unavailable, listed]
  · rw [t.entries_next wf, t₀.entries_next wf₀, entries, entry, unavailable, List.filter_filter,
      List.filter_filter]
    simp only [Bool.and_comm]
  · rw [t.rest_next, t₀.rest_next, calls]

/-- The turns of the listeners that are kept are the same. -/
theorem Turns.pared (same : ∀ l, keep l = true → rules₀ l = rules l)
    (turns : Turns (fun l => following rules l e) s ts u)
    (turns₀ : Turns (fun l => following rules₀ l e) s₀ ts₀ u₀) (pared : Pared keep s s₀)
    (entries : ts₀.map (·.entry) = (ts.map (·.entry)).filter (keep ·.listener))
    (own : ∀ t ∈ ts, ∀ x ∈ s.roster.entries, x.handle = t.entry.handle → x = t.entry) :
    Pared keep u u₀ ∧
      ts₀.map Turn.outcome = (ts.filter (keep ·.entry.listener)).map Turn.outcome := by
  induction turns generalizing s₀ ts₀ with
  | nil s =>
    obtain rfl : ts₀ = [] := List.map_eq_nil_iff.mp entries
    cases turns₀
    exact ⟨pared, rfl⟩
  | @cons t ts u called rest ih =>
    rw [List.forall_mem_cons] at own
    obtain ⟨own, others⟩ := own
    have wf : t.after.roster.WellFormed := by
      rw [(Turn.of_following called).2]
      exact pared.wellFormed
    have others : ∀ t' ∈ ts, ∀ x ∈ t.next.roster.entries,
        x.handle = t'.entry.handle → x = t'.entry := by
      intro t' mem x listed
      rw [t.entries_next wf, (Turn.of_following called).2] at listed
      exact others t' mem x (List.mem_filter.mp listed).1
    cases kept : keep t.entry.listener with
    | false =>
      rw [List.map_cons, List.filter_cons_of_neg (by simp [kept])] at entries
      rw [List.filter_cons_of_neg (by simp [kept])]
      exact ih turns₀ (pared.unkept called own kept) entries others
    | true =>
      rw [List.map_cons, List.filter_cons_of_pos (by simp [kept])] at entries
      rw [List.filter_cons_of_pos (by simp [kept])]
      cases turns₀ with
      | nil => cases entries
      | @cons t₀ ts₀ _ called₀ rest₀ =>
        obtain ⟨entry, entries⟩ := List.cons.inj entries
        obtain ⟨outcome, pared⟩ :=
          pared.kept called called₀ entry (same _ kept) own kept
        obtain ⟨pared, outcomes⟩ := ih rest₀ pared entries others
        exact ⟨pared, by rw [List.map_cons, List.map_cons, outcome, outcomes]⟩

/-- A run without some of its listeners is the run of the others. -/
theorem Rounds.pared (same : ∀ l, keep l = true → rules₀ l = rules l) {es : List Event}
    {rounds rounds₀ : List (List (Turn L (Calls L)))}
    (run : Rounds (following rules) s es rounds u)
    (run₀ : Rounds (following rules₀) s₀ es rounds₀ u₀) (pared : Pared keep s s₀) :
    Pared keep u u₀ ∧ rounds₀.map (·.map Turn.outcome) =
      rounds.map fun ts => (ts.filter (keep ·.entry.listener)).map Turn.outcome := by
  induction run generalizing s₀ rounds₀ with
  | nil s =>
    cases run₀
    exact ⟨pared, rfl⟩
  | @cons s t u e es ts rounds turns everyone more ih =>
    cases run₀ with
    | cons turns₀ everyone₀ more₀ =>
      have entries := everyone₀.trans (everyone ▸ pared.entries)
      obtain ⟨pared, outcomes⟩ := turns.pared same turns₀ pared entries (by
        intro t mem x listed eq
        have turn : t.entry ∈ s.roster.entries := everyone ▸ List.mem_map_of_mem mem
        exact pared.wellFormed.eq_of_handle listed turn eq)
      obtain ⟨pared, later⟩ := ih more₀ pared
      exact ⟨pared, by rw [List.map_cons, List.map_cons, outcomes, later]⟩

/-! ## One listener -/

theorem heardBy_append (l : L) (calls more : Calls L) :
    heardBy l (calls ++ more) = heardBy l calls ++ heardBy l more := by
  simp [heardBy]

theorem Rounds.deserted {es : List Event} {rounds : List (List (Turn L (Calls L)))}
    (run : Rounds (following rules) s es rounds u) (empty : s.roster.entries = []) : u = s := by
  induction run with
  | nil s => rfl
  | cons turns everyone more ih =>
    rw [empty, List.map_eq_nil_iff] at everyone
    subst everyone
    obtain rfl := turns.eq_of_nil
    exact ih empty

/-- A listener that is alone on the roster receives all events up to the first that it answers as
unavailable, and then it is off the roster. -/
theorem Rounds.alone {es : List Event} {rounds : List (List (Turn L (Calls L)))} {x : Entry L}
    (run : Rounds (following rules) s es rounds u) (wf : s.roster.WellFormed)
    (only : s.roster.entries = [x]) {rule : Rule}
    (goesBy : rule = (rules x.listener).behind (heardBy x.listener s.rest)) :
    ∃ heard, heardBy x.listener u.rest = heardBy x.listener s.rest ++ heard ∧
      rule.Hears es heard ∧ (x ∈ u.roster.entries ↔ ¬ rule.Gone es) := by
  induction run generalizing rule with
  | nil s => exact ⟨[], by simp, .nil rule, by simp [only, rule.not_gone_nil]⟩
  | @cons s w u e es ts rounds turns everyone more ih =>
    rw [only] at everyone
    obtain ⟨t, rfl, rfl⟩ := List.map_eq_singleton_iff.mp everyone
    cases turns with
    | cons called rest =>
    obtain rfl := rest.eq_of_nil
    obtain ⟨answer, after⟩ := Turn.of_following called
    have wf' : t.after.roster.WellFormed := after ▸ wf
    have entries := t.entries_next wf'
    rw [after, only] at entries
    have past : heardBy t.entry.listener t.next.rest =
        heardBy t.entry.listener t.before.rest ++ [e] := by
      rw [t.rest_next, after, heardBy_append]
      simp [heardBy]
    have drops : t.unavailable = true ↔ rule.Drops [e] := by
      rw [t.unavailable_iff, answer, ← t.rest_next, past, goesBy]
      rfl
    by_cases unavailable : t.unavailable = true
    · have gone : rule.Gone (e :: es) := Rule.gone_cons.mpr (.inl (drops.mp unavailable))
      have empty : t.next.roster.entries = [] := by simp [entries, unavailable]
      obtain rfl := more.deserted empty
      exact ⟨[e], past, .last (drops.mp unavailable) es, by simp [empty, gone]⟩
    · have stays : ¬ rule.Drops [e] := mt drops.mpr unavailable
      have only : t.next.roster.entries = [t.entry] := by simp [entries, unavailable]
      have shifted : rule.behind [e] =
          (rules t.entry.listener).behind (heardBy t.entry.listener t.next.rest) := by
        rw [past, goesBy]
        funext calls
        simp [Rule.behind]
      obtain ⟨heard, all, hears, kept⟩ := ih (t.wellFormed_next wf') only shifted
      refine ⟨e :: heard, ?_, .cons stays hears, ?_⟩
      · rw [all, past, List.append_assoc, List.singleton_append]
      · rw [kept, Rule.gone_cons, not_or, and_iff_right stays]

/-! ## All runs -/

/-- What becomes of the listeners of a run: each that is registered once receives all events up to
the first that it answers as unavailable, and is off the roster exactly if it has answered so. -/
def Fates (rules : L → Rule) (r : Roster L) (es : List Event) (u : Session L (Calls L)) : Prop :=
  ∀ x ∈ r.entries, (∀ y ∈ r.entries, y.listener = x.listener → y = x) →
    (rules x.listener).Hears es (heardBy x.listener u.rest) ∧
    (x ∈ u.roster.entries ↔ ¬ (rules x.listener).Gone es)

/-- Two runs that are the same to all listeners but one. -/
structure SameToOthers (a : L) (rounds rounds' : List (List (Turn L (Calls L))))
    (u u' : Session L (Calls L)) : Prop where
  /-- All receive the same calls in the same order. -/
  calls : u.rest.filter (·.1 ≠ a) = u'.rest.filter (·.1 ≠ a)
  /-- In every broadcast they are called in the same order, give the same answers and are taken off
  the roster at the same calls. -/
  outcomes : (rounds.map fun ts => (ts.filter (·.entry.listener ≠ a)).map Turn.outcome) =
    rounds'.map fun ts => (ts.filter (·.entry.listener ≠ a)).map Turn.outcome
  /-- The same are left. -/
  entries : u.roster.entries.filter (·.listener ≠ a) = u'.roster.entries.filter (·.listener ≠ a)
  heard : ∀ l, l ≠ a → heardBy l u.rest = heardBy l u'.rest
  /-- Each adds the same to every report. -/
  shares : ∀ l, l ≠ a → rounds.map (Report.shareOf l) = rounds'.map (Report.shareOf l)

theorem shareOf_congr {l : L} {rounds rounds' : List (List (Turn L τ))}
    (same : (rounds.map fun ts => (ts.filter (·.entry.listener = l)).map Turn.outcome) =
      rounds'.map fun ts => (ts.filter (·.entry.listener = l)).map Turn.outcome) :
    rounds.map (Report.shareOf l) = rounds'.map (Report.shareOf l) := by
  induction rounds generalizing rounds' with
  | nil => rw [List.map_eq_nil_iff.mp same.symm]
  | cons ts rounds ih =>
    obtain ⟨us, rounds', rfl, first, others⟩ := List.map_eq_cons_iff.mp same.symm
    rw [List.map_cons, List.map_cons, ih others.symm]
    exact congrArg (· :: _) (tally_congr first.symm {})

theorem Rounds.fates {r : Roster L} (wf : r.WellFormed) {es : List Event}
    {rounds : List (List (Turn L (Calls L)))}
    (run : Rounds (following rules) ⟨r, []⟩ es rounds u) : Fates rules r es u := by
  intro x mem once
  obtain ⟨s₀, pared⟩ := exists_pared (· = x.listener) (s := ⟨r, []⟩) wf
  obtain ⟨rounds₀, u₀, run₀⟩ := exists_rounds rules es s₀
  have only : s₀.roster.entries = [x] := by
    have distinct : s₀.roster.entries.Nodup := .of_map _ pared.wellFormed₀.handles_nodup
    apply List.perm_singleton.mp
    rw [List.perm_ext_iff_of_nodup distinct (List.nodup_singleton x), pared.entries]
    intro y
    rw [List.mem_filter, List.mem_singleton, decide_eq_true_iff]
    constructor
    · exact fun ⟨mem', same⟩ => once y mem' same
    · rintro rfl
      exact ⟨mem, rfl⟩
  have none : s₀.rest = [] := pared.calls
  obtain ⟨heard, all, hears, stays⟩ := run₀.alone pared.wellFormed₀ only rfl
  obtain ⟨pared, -⟩ := run.pared (fun l _ => rfl) run₀ pared
  have kept : decide (x.listener = x.listener) = true := decide_eq_true rfl
  rw [none, pared.calls, heardBy_filter (· = x.listener) kept] at all
  rw [none] at hears stays
  rw [pared.entries, List.mem_filter, and_iff_left kept] at stays
  rw [all]
  exact ⟨hears, stays⟩

/-- Runs in which the listeners but one go by the same rules are the same to them. -/
theorem Rounds.sameToOthers {rules' : L → Rule} {a : L} {u' : Session L (Calls L)}
    (same : ∀ l, l ≠ a → rules' l = rules l) (wf : s.roster.WellFormed) {es : List Event}
    {rounds rounds' : List (List (Turn L (Calls L)))}
    (run : Rounds (following rules) s es rounds u)
    (run' : Rounds (following rules') s es rounds' u') : SameToOthers a rounds rounds' u u' := by
  -- what some listeners see of both runs is the run of these alone
  have agree (keep : L → Bool) (others : ∀ l, keep l = true → l ≠ a) :
      u.rest.filter (keep ·.1) = u'.rest.filter (keep ·.1) ∧
      u.roster.entries.filter (keep ·.listener) = u'.roster.entries.filter (keep ·.listener) ∧
      (rounds.map fun ts => (ts.filter (keep ·.entry.listener)).map Turn.outcome) =
        rounds'.map fun ts => (ts.filter (keep ·.entry.listener)).map Turn.outcome := by
    obtain ⟨s₀, pared⟩ := exists_pared keep wf
    obtain ⟨rounds₀, u₀, run₀⟩ := exists_rounds rules es s₀
    obtain ⟨left, outcomes⟩ := run.pared (fun l _ => rfl) run₀ pared
    obtain ⟨left', outcomes'⟩ := run'.pared (fun l kept => (same l (others l kept)).symm) run₀ pared
    exact ⟨left.calls.symm.trans left'.calls, left.entries.symm.trans left'.entries,
      outcomes.symm.trans outcomes'⟩
  have one (l : L) (other : l ≠ a) := agree (· = l) fun l' own => by
    rw [decide_eq_true_iff.mp own]
    exact other
  obtain ⟨calls, entries, outcomes⟩ := agree (· ≠ a) fun l other => by simpa using other
  refine ⟨calls, outcomes, entries, fun l other => ?_, fun l other => ?_⟩
  · exact congrArg (List.map (·.2)) (one l other).1
  · exact shareOf_congr (one l other).2.2

/-- Whatever one listener answers, two runs are the same to all others, and either run returns a
report on each of its broadcasts. In both, each listener receives all events up to the first that it
answers as unavailable; other faults take nobody off the roster. -/
theorem isolates {rules rules' : L → Rule} {a : L} (same : ∀ l, l ≠ a → rules' l = rules l)
    {r : Roster L} (wf : r.WellFormed) (es : List Event) :
    ∃ rounds rounds' u u',
      Rounds (following rules) ⟨r, []⟩ es rounds u ∧
      Rounds (following rules') ⟨r, []⟩ es rounds' u' ∧
      es.mapM (notify (following rules)) ⟨r, []⟩ =
        .ok (rounds.map fun ts => Report.tally ts {}) u ∧
      es.mapM (notify (following rules')) ⟨r, []⟩ =
        .ok (rounds'.map fun ts => Report.tally ts {}) u' ∧
      SameToOthers a rounds rounds' u u' ∧ Fates rules r es u ∧ Fates rules' r es u' := by
  obtain ⟨rounds, u, run⟩ := exists_rounds rules es ⟨r, []⟩
  obtain ⟨rounds', u', run'⟩ := exists_rounds rules' es ⟨r, []⟩
  exact ⟨rounds, rounds', u, u', run, run', run.mapM_eq, run'.mapM_eq,
    run.sameToOthers same wf run', run.fates wf, run'.fates wf⟩

/-- The second of three listeners is unavailable, or it is not; the third one fails twice, and the
second time it is unavailable. -/
theorem isolates_three :
    let f : Handle := ⟨1, none⟩
    let g : Handle := ⟨2, none⟩
    let h : Handle := ⟨3, none⟩
    let r : Roster Nat := (Roster.register h 2 (Roster.register g 1 (Roster.register f 0 {}).2).2).2
    let gone : Except Fault Unit := .error (.unavailable f .deadObject)
    let rules (answer : Except Fault Unit) : Nat → Rule
      | 0 => fun _ => .ok ()
      | 1 => fun _ => answer
      | _ => fun calls => if calls.length < 2 then .error (.handler "busy") else gone
    let es : List Event := [.connectionChanged true, .volumeForgotten "a", .connectionChanged false]
    (∀ l, l ≠ 1 → rules (.ok ()) l = rules gone l) ∧ r.WellFormed ∧ ∃ rounds rounds' u u',
      es.mapM (notify (following (rules gone))) ⟨r, []⟩ =
        .ok [⟨1, [g, h], 1⟩, ⟨1, [h], 1⟩, ⟨1, [], 0⟩] u ∧
      es.mapM (notify (following (rules (.ok ())))) ⟨r, []⟩ =
        .ok [⟨2, [h], 0⟩, ⟨2, [h], 1⟩, ⟨2, [], 0⟩] u' ∧
      SameToOthers 1 rounds rounds' u u' ∧
      Fates (rules gone) r es u ∧ Fates (rules (.ok ())) r es u' := by
  intro f g h r gone rules es
  have same : ∀ l, l ≠ 1 → rules (.ok ()) l = rules gone l := by
    intro l other
    match l with
    | 0 => rfl
    | 1 => exact absurd rfl other
    | _ + 2 => rfl
  have wf : r.WellFormed := ((Roster.WellFormed.empty.register _ _).register _ _).register _ _
  obtain ⟨rounds, rounds', u, u', -, -, ran, ran', same', fates, fates'⟩ := isolates same wf es
  have reports (answer : Except Fault Unit) {reports : List Report} {u : Session Nat (Calls Nat)}
      (ran : es.mapM (notify (following (rules answer))) ⟨r, []⟩ = .ok reports u) :
      ((es.mapM (notify (following (rules answer)))).attempt ⟨r, []⟩).1.toOption =
        some reports := by
    rw [Act.attempt, ran]
    rfl
  have first := (reports gone ran).symm.trans (by decide +kernel :
    _ = some [⟨1, [g, h], 1⟩, ⟨1, [h], 1⟩, ⟨1, [], 0⟩])
  have second := (reports (.ok ()) ran').symm.trans (by decide +kernel :
    _ = some [⟨2, [h], 0⟩, ⟨2, [h], 1⟩, ⟨2, [], 0⟩])
  rw [Option.some.inj first] at ran
  rw [Option.some.inj second] at ran'
  exact ⟨same, wf, rounds, rounds', u, u', ran, ran', same', fates, fates'⟩

end Session

end StorageBus
