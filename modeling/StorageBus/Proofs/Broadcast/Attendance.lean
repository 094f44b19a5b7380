import StorageBus.Proofs.Broadcast.Isolation

/-!
# Listeners that stay

Listeners may act on a state that they share, and on what the others do to it. As long as they leave
the roster alone, one that is never unavailable stays on it through any series of broadcasts,
whatever becomes of the others, and is called with every event, once for each of its registrations.

## Main definitions

* `Session.Aloof` — listeners that answer every call and leave the roster alone.
* `Session.Steady` — a listener that is never unavailable.
* `Session.watched` — the listeners under watch, with a note of every call.
* `Session.Course` — what a series of events comes to for those that stay.

## Main results

* `Session.notify_watched` — watching changes nothing, and a broadcast is one call to each entry.
* `Session.exists_course`, `Session.exists_course_forM` — the course of a broadcast, and of any
  series of them.
-/
namespace StorageBus.Session

variable {L σ : Type}

/-- Every call returns, and nobody but the broadcast itself touches the roster. -/
def Aloof (listener : L → Listener (Session L σ)) : Prop :=
  ∀ l e s, ∃ answer v, listener l e s = .ok answer { s with rest := v }

/-- The listener may fail, but it is never unavailable. -/
def Steady (listener : L → Listener (Session L σ)) (l : L) : Prop :=
  ∀ e s fault t, listener l e s = .ok (.error fault) t → fault.isUnavailable = false

/-! ## Watching -/

/-- The session with notes of calls beside whatever its listeners act on. -/
def withCalls (calls : Calls L) (s : Session L σ) : Session L (Calls L × σ) :=
  { roster := s.roster, rest := (calls, s.rest) }

/-- The listeners with a note of every call, the earliest first. -/
def watched (listener : L → Listener (Session L σ)) (l : L) :
    Listener (Session L (Calls L × σ)) := fun e s =>
  let calls := s.rest.1 ++ [(l, e)]
  match listener l e { roster := s.roster, rest := s.rest.2 } with
  | .ok answer t => .ok answer (t.withCalls calls)
  | .error p t => .error p (t.withCalls calls)

variable {listener : L → Listener (Session L σ)} {e : Event} {s t u : Session L σ} {r : Report}

theorem watched_of_ok {l : L} {answer : Except Fault Unit} (ok : listener l e s = .ok answer t)
    (calls : Calls L) :
    watched listener l e (s.withCalls calls) = .ok answer (t.withCalls (calls ++ [(l, e)])) := by
  simp only [watched, withCalls, ok]

theorem settle_withCalls (h : Handle) (answer : Except Fault Unit) (r : Report)
    (calls : Calls L) (s : Session L σ) :
    settle h answer r (s.withCalls calls) =
      ((settle h answer r s).1, (settle h answer r s).2.withCalls calls) := by
  cases answer with
  | ok => rfl
  | error fault =>
    simp only [settle]
    split <;> rfl

theorem callEach_watched {es : List (Entry L)} {report : Report}
    (ok : callEach (fun l => listener l e) es report s = .ok r u) (calls : Calls L) :
    callEach (fun l => watched listener l e) es report (s.withCalls calls) =
      .ok r (u.withCalls (calls ++ es.map fun x => (x.listener, e))) := by
  induction es generalizing s report calls with
  | nil =>
    obtain ⟨rfl, rfl⟩ := EStateM.Result.ok.inj ok
    rw [List.map_nil, List.append_nil]
    rfl
  | cons x es ih =>
    obtain ⟨answer, t, called, -⟩ := Act.of_bind ok
    have seen : (fun l => watched listener l e) x.listener (s.withCalls calls) =
        .ok answer (t.withCalls (calls ++ [(x.listener, e)])) := watched_of_ok called calls
    rw [callEach_cons called] at ok
    rw [callEach_cons seen, settle_withCalls, ih ok, List.map_cons, List.append_assoc]
    rfl

/-- The calls of a broadcast that returns, one to each entry. -/
def callsFor (e : Event) (s : Session L σ) : Calls L :=
  s.roster.entries.map fun x => (x.listener, e)

theorem notify_watched (told : notify listener e s = .ok r u) (calls : Calls L) :
    notify (watched listener) e (s.withCalls calls) =
      .ok r (u.withCalls (calls ++ s.callsFor e)) :=
  callEach_watched told calls

/-! ## One event -/

theorem Steady.available {t : Turn L σ} (steady : Steady listener t.entry.listener)
    (called : listener t.entry.listener e t.before = .ok t.answer t.after) :
    t.unavailable = false := by
  rw [← Bool.not_eq_true, t.unavailable_iff]
  rintro ⟨fault, answer, gone⟩
  rw [answer] at called
  rw [steady e t.before fault t.after called] at gone
  cases gone

variable [DecidableEq L]

/-- The registrations of one listener. -/
def entriesOf (l : L) (s : Session L σ) : List (Entry L) :=
  s.roster.entries.filter (·.listener = l)

/-- Whoever goes off the roster in a turn is not a steady listener. -/
theorem Turn.entriesOf_next {t : Turn L σ} {v : σ} {l : L} (wf : t.before.roster.WellFormed)
    (after : t.after = { t.before with rest := v })
    (called : listener t.entry.listener e t.before = .ok t.answer t.after)
    (own : ∀ y ∈ t.before.roster.entries, y.handle = t.entry.handle → y = t.entry)
    (steady : Steady listener l) : t.next.entriesOf l = t.before.entriesOf l := by
  have roster : t.after.roster = t.before.roster := by rw [after]
  rw [entriesOf, t.entries_next (roster ▸ wf), roster, List.filter_filter]
  apply List.filter_congr
  intro y listed
  by_cases one : y.listener = l
  · have stays : ¬ (t.unavailable ∧ y.handle = t.entry.handle) := by
      rintro ⟨unavailable, same⟩
      obtain rfl := own y listed same
      rw [← one] at steady
      rw [steady.available called] at unavailable
      cases unavailable
    simp [one, stays]
  · simp [one]

theorem callEach_of_aloof (aloof : Aloof listener) {es : List (Entry L)}
    (wf : s.roster.WellFormed)
    (own : ∀ x ∈ es, ∀ y ∈ s.roster.entries, y.handle = x.handle → y = x) (report : Report) :
    ∃ r u, callEach (fun l => listener l e) es report s = .ok r u ∧ u.roster.WellFormed ∧
      ∀ l, Steady listener l → u.entriesOf l = s.entriesOf l := by
  -- the roster loses entries on the way, but those that are left still tell their handles
  induction es generalizing s report with
  | nil => exact ⟨report, s, rfl, wf, fun _ _ => rfl⟩
  | cons x es ih =>
    rw [List.forall_mem_cons] at own
    obtain ⟨own, others⟩ := own
    obtain ⟨answer, v, called⟩ := aloof x.listener e s
    let t : Turn L σ := ⟨x, s, answer, { s with rest := v }⟩
    have among : ∀ y ∈ t.next.roster.entries, y ∈ s.roster.entries := by
      intro y mem
      rw [t.entries_next wf] at mem
      exact (List.mem_filter.mp mem).1
    obtain ⟨r, u, ok, wf', stay⟩ := ih (t.wellFormed_next wf)
      (fun y mem z listed => others y mem z (among z listed)) (report.tally [t])
    refine ⟨r, u, ?_, wf', ?_⟩
    · have settled : settle x.handle answer report { s with rest := v } = _ := t.settle_eq report
      rw [callEach_cons called, settled]
      exact ok
    · intro l steady
      rw [stay l steady]
      exact t.entriesOf_next wf rfl called own steady

/-- What a series of events comes to: from one session to another they were told by these calls, and
listeners that are never unavailable have stayed and heard everything. -/
structure Course (listener : L → Listener (Session L σ)) (s : Session L σ) (es : List Event)
    (calls : Calls L) (u : Session L σ) : Prop where
  wellFormed : u.roster.WellFormed
  stay : ∀ l, Steady listener l → u.entriesOf l = s.entriesOf l
  hear : ∀ l, Steady listener l →
    heardBy l calls = es.flatMap (List.replicate (s.entriesOf l).length)

theorem heardBy_callsFor (l : L) (e : Event) (s : Session L σ) :
    heardBy l (s.callsFor e) = List.replicate (s.entriesOf l).length e := by
  rw [heardBy, callsFor, List.filter_map, List.map_map]
  exact List.map_const'

/-- Among listeners that leave the roster alone a broadcast returns. -/
theorem exists_course (aloof : Aloof listener) (wf : s.roster.WellFormed) (e : Event) :
    ∃ r u, notify listener e s = .ok r u ∧ Course listener s [e] (s.callsFor e) u := by
  have own : ∀ x ∈ s.roster.entries, ∀ y ∈ s.roster.entries, y.handle = x.handle → y = x :=
    fun x mem y mem' same => wf.eq_of_handle mem' mem same
  obtain ⟨r, u, told, wf', stay⟩ := callEach_of_aloof (e := e) aloof wf own {}
  refine ⟨r, u, told, wf', stay, fun l _ => ?_⟩
  rw [heardBy_callsFor, List.flatMap_singleton]

/-! ## One event after the other -/

theorem Course.refl (wf : s.roster.WellFormed) : Course listener s [] [] s where
  wellFormed := wf
  stay _ _ := rfl
  hear _ _ := rfl

theorem Course.trans {es more : List Event} {calls later : Calls L}
    (first : Course listener s es calls t) (second : Course listener t more later u) :
    Course listener s (es ++ more) (calls ++ later) u where
  wellFormed := second.wellFormed
  stay l steady := (second.stay l steady).trans (first.stay l steady)
  hear l steady := by
    rw [heardBy_append, first.hear l steady, second.hear l steady, first.stay l steady,
      List.flatMap_append]

/-- Broadcasts go on in the session that the one before them left, watched or not. -/
theorem exists_course_forM (aloof : Aloof listener) (wf : s.roster.WellFormed)
    (es : List Event) :
    ∃ calls u, Course listener s es calls u ∧
      (es.forM fun e => discard (notify listener e)) s = .ok () u ∧
      ∀ past, (es.forM fun e => discard (notify (watched listener) e)) (s.withCalls past) =
        .ok () (u.withCalls (past ++ calls)) := by
  induction es generalizing s with
  | nil =>
    refine ⟨[], s, .refl wf, rfl, fun past => ?_⟩
    rw [List.append_nil]
    rfl
  | cons e es ih =>
    obtain ⟨r, t, told, first⟩ := exists_course aloof wf e
    obtain ⟨calls, u, later, ran, seen⟩ := ih first.wellFormed
    refine ⟨s.callsFor e ++ calls, u, first.trans later, ?_, fun past => ?_⟩
    · exact (Act.bind_apply (Act.discard_apply told) _).trans ran
    · rw [← List.append_assoc, ← seen]
      exact Act.bind_apply (Act.discard_apply (notify_watched told past)) _

end StorageBus.Session
