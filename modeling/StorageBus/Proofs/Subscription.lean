import StorageBus.Proofs.Broadcast.Turns
import StorageBus.Proofs.Endpoint.Mailboxes
import StorageBus.Publisher

/-!
# Subscriptions that contend with deaths

Any number of callers register remote listeners, take handles off the roster and kill endpoints,
step by step and in any order. A caller who registers comes onto the roster first and asks for an
obituary then; if the endpoint has died meanwhile it goes off the roster again. A caller who kills
closes the mailbox first and sees to the obituaries then, one after the other. So an endpoint may be
dead while it is on the roster, but then somebody is there who will still take it off.

## Main definitions

* `Subscription` — a remote listener, with the caller who registered it.
* `Subscription.Progress`, `Subscription.Progress.advance` — how far a caller has come, and its next
  step.
* `Subscription.Scene`, `Subscription.Scene.play` — a roster and mailboxes with their callers, and
  steps in the order of a schedule.
* `Subscription.Scene.Attended` — whether somebody will take a handle off when its endpoint is dead.

## Main results

* `Subscription.register_eq_alone`, `Subscription.kill_eq_alone` — a caller whom nobody disturbs.
* `Subscription.Scene.Sound.play` — every handle on the roster is attended to at all times.
* `Subscription.Scene.none_dead_stays` — when no caller is under way everybody on the roster is
  alive.
-/
namespace StorageBus

structure Subscription where
  caller : Nat
  remote : Remote
deriving DecidableEq

namespace Subscription

/-! ## Callers -/

/-- A roster of subscriptions, and the mailboxes of their endpoints. An obituary takes the endpoint
off the roster. -/
abbrev Desk := Session Subscription (Mailboxes Unit)

/-- How far a caller has come. -/
inductive Progress where
  | registering (h : Handle)
  /-- A subscription on the roster, for which an obituary is about to be asked for. -/
  | listed (h : Handle)
  /-- The endpoint was dead, and is about to be taken off the roster. -/
  | late (h : Handle)
  | linked (h : Handle)
  | duplicate (h : Handle)
  | refused (h : Handle)
  | unregistering (h : Handle)
  | unregistered (h : Handle) (known : Bool)
  | killing (h : Handle)
  /-- The endpoint is dead, and these obituaries are still to be seen to. -/
  | burying (h : Handle) (obituaries : List Unit)
  | killed (h : Handle) (alive : Bool)
deriving DecidableEq

namespace Progress

/-- The next step of a caller. -/
def advance (i : Nat) : Progress → Desk → Progress × Desk
  | .registering h, desk =>
    let (accepted, desk) := desk.register h ⟨i, { handle := h }⟩
    (if accepted then .listed h else .duplicate h, desk)
  | .listed h, desk =>
    match Session.restPart.lift (Mailboxes.link h ()) desk with
    | (.ok (), desk) => (.linked h, desk)
    | (.error failure, desk) => (if failure.isDead then .late h else .linked h, desk)
  | .late h, desk => (.refused h, (desk.unregister h).2)
  | .unregistering h, desk =>
    let (known, desk) := desk.unregister h
    (.unregistered h known, desk)
  | .killing h, desk =>
    match Session.restPart.lift (Mailboxes.close h) desk with
    | (none, desk) => (.killed h false, desk)
    | (some obituaries, desk) => (.burying h obituaries, desk)
  | .burying h [], desk => (.killed h true, desk)
  | .burying h (() :: obituaries), desk => (.burying h obituaries, (desk.unregister h).2)
  | .linked h, desk => (.linked h, desk)
  | .duplicate h, desk => (.duplicate h, desk)
  | .refused h, desk => (.refused h, desk)
  | .unregistered h known, desk => (.unregistered h known, desk)
  | .killed h alive, desk => (.killed h alive, desk)

/-- So many steps of one caller, with nobody else there. -/
def alone (i : Nat) : Nat → Progress → Desk → Progress × Desk
  | 0, p, desk => (p, desk)
  | n + 1, p, desk =>
    let (p, desk) := p.advance i desk
    alone i n p desk

/-- What a caller is told in the end. -/
def answer? : Progress → Option Bool
  | .linked _ => some true
  | .duplicate _ | .refused _ => some false
  | .unregistered _ known => some known
  | .killed _ alive => some alive
  | .registering _ | .listed _ | .late _ | .unregistering _ | .killing _ | .burying _ _ => none

/-- Whether the caller is in the middle of registering or killing. -/
def UnderWay : Progress → Prop
  | .listed _ | .late _ | .burying _ _ => True
  | .registering _ | .linked _ | .duplicate _ | .refused _ | .unregistering _ | .unregistered _ _
  | .killing _ | .killed _ _ => False

/-- Whether the caller will find out that the endpoint is dead, or knows it, and will take it off
the roster then. -/
def Attends (h : Handle) : Progress → Prop
  | .listed g | .late g => g = h
  | .burying g obituaries => g = h ∧ obituaries ≠ []
  | .registering _ | .linked _ | .duplicate _ | .refused _ | .unregistering _ | .unregistered _ _
  | .killing _ | .killed _ _ => False

/-- Whether a subscription of the caller may be on the roster. -/
def Owns (h : Handle) : Progress → Prop
  | .listed g | .late g | .linked g => g = h
  | .registering _ | .duplicate _ | .refused _ | .unregistering _ | .unregistered _ _ | .killing _
  | .burying _ _ | .killed _ _ => False

theorem Attends.underWay {h : Handle} {p : Progress} (attends : p.Attends h) : p.UnderWay := by
  cases p <;> trivial

section

variable {i : Nat} {h : Handle} {desk : Desk}

theorem advance_registering_of_mem (known : h ∈ desk.roster.handles) :
    advance i (.registering h) desk = (.duplicate h, desk) := by
  have refused : desk.register h ⟨i, { handle := h }⟩ = (false, desk) := by
    simp [Session.register, Part.lift, Session.rosterPart, Roster.register_of_mem known]
  rw [advance, refused]
  rfl

theorem advance_registering_of_not_mem (new : h ∉ desk.roster.handles) :
    advance i (.registering h) desk =
      (.listed h, (desk.register h ⟨i, { handle := h }⟩).2) := by
  have accepted : (desk.register h ⟨i, { handle := h }⟩).1 = true :=
    Roster.register_of_not_mem new _
  simp [advance, accepted]

theorem advance_listed (desk : Desk) : advance i (.listed h) desk =
    if desk.rest.isAlive h then
      (.linked h, { desk with
        rest := desk.rest.update h fun b => { b with obituaries := b.obituaries ++ [()] } })
    else (.late h, desk) := by
  cases alive : desk.rest.isAlive h <;>
    simp [advance, Part.lift, Session.restPart, Mailboxes.link, alive, Failure.isDead]

theorem advance_killing_of_dead (dead : desk.rest.isAlive h = false) :
    advance i (.killing h) desk = (.killed h false, desk) := by
  have none : desk.rest.openBox? h = none := by simpa [Mailboxes.isAlive] using dead
  simp [advance, Part.lift, Session.restPart, Mailboxes.close, none]

theorem advance_killing_of_alive {b : Mailbox Unit}
    (found : Table.find? h desk.rest.boxes = some b) (isOpen : b.isOpen = true) :
    advance i (.killing h) desk = (.burying h b.obituaries, { desk with
      rest := desk.rest.update h fun b => { b with isOpen := false, obituaries := [] } }) := by
  have opened : desk.rest.openBox? h = some b := by
    rw [Mailboxes.openBox?, found, Option.filter_some, if_pos isOpen]
  simp [advance, Part.lift, Session.restPart, Mailboxes.close, opened]

end

end Progress

open Progress

/-- A caller who registers and whom nobody disturbs. -/
theorem register_eq_alone (i : Nat) (h : Handle) (desk : Desk) :
    (alone i 3 (.registering h) desk).1.answer? = some (Session.registerRemote
        (Mailboxes.carrier Unit) () h ⟨i, { handle := h }⟩ desk).1 ∧
      (alone i 3 (.registering h) desk).2 = (Session.registerRemote
        (Mailboxes.carrier Unit) () h ⟨i, { handle := h }⟩ desk).2 := by
  simp only [alone, advance, Session.registerRemote, Mailboxes.carrier]
  cases registered : desk.register h ⟨i, { handle := h }⟩ with
  | mk accepted desk' =>
    cases accepted with
    | false => simp [answer?]
    | true =>
      cases linked : Session.restPart.lift (Mailboxes.link h ()) desk' with
      | mk answer desk'' =>
        cases answer with
        | ok => simp [linked, answer?]
        | error failure => cases dead : failure.isDead <;> simp [linked, dead, answer?]

/-- The obituary of a subscription takes it off the roster. -/
def bury (h : Handle) (_ : Unit) : Act Desk Unit := discard (modifyGet (Session.unregister h))

theorem bury_eq_alone (i : Nat) (h : Handle) (obituaries : List Unit) (desk : Desk) :
    ∃ t, obituaries.forM (bury h) desk = .ok () t ∧
      alone i (obituaries.length + 1) (.burying h obituaries) desk = (.killed h true, t) := by
  induction obituaries generalizing desk with
  | nil => exact ⟨desk, rfl, rfl⟩
  | cons one obituaries ih =>
    obtain ⟨t, buried, alone⟩ := ih (desk.unregister h).2
    exact ⟨t, buried, alone⟩

/-- A caller who kills and whom nobody disturbs. -/
theorem kill_eq_alone (i : Nat) (h : Handle) (desk : Desk) :
    ∃ n alive t, Mailboxes.kill Session.restPart bury h desk = .ok alive t ∧
      alone i n (.killing h) desk = (.killed h alive, t) := by
  cases closed : Session.restPart.lift (Mailboxes.close h) desk with
  | mk obituaries desk' =>
    cases obituaries with
    | none =>
      refine ⟨1, false, desk', Mailboxes.kill_of_none closed, ?_⟩
      simp [alone, advance, closed]
    | some obituaries =>
      obtain ⟨t, buried, ended⟩ := bury_eq_alone i h obituaries desk'
      refine ⟨obituaries.length + 1 + 1, true, t, Mailboxes.kill_of_some closed buried, ?_⟩
      rw [alone, advance, closed]
      exact ended

/-! ## Scenes -/

/-- A roster and mailboxes, with everybody who registers, unregisters or kills. -/
structure Scene where
  desk : Desk
  callers : Nat → Progress

namespace Scene

/-- The scene in which one of the callers has come so far. -/
def put (i : Nat) (p : Progress) (desk : Desk) (s : Scene) : Scene where
  desk := desk
  callers j := if j = i then p else s.callers j

/-- The next step of one of the callers. -/
def step (i : Nat) (s : Scene) : Scene :=
  let (p, desk) := (s.callers i).advance i s.desk
  s.put i p desk

/-- Steps of callers in the order of the schedule. -/
def play (schedule : List Nat) (s : Scene) : Scene := schedule.foldl (fun s i => s.step i) s

/-- Whether somebody takes the handle off the roster when its endpoint is dead: a caller who has not
finished, or an obituary that is kept for a live endpoint. -/
def Attended (s : Scene) (h : Handle) : Prop :=
  (∃ i, (s.callers i).Attends h) ∨
    ∃ obituaries, s.desk.rest.ends h = some (true, obituaries) ∧ obituaries ≠ []

/-- Every subscription is that of its caller, and everybody on the roster is attended to. -/
structure Sound (s : Scene) : Prop where
  wellFormed : s.desk.roster.WellFormed
  remotes : ∀ e ∈ s.desk.roster.entries, e.listener.remote = { handle := e.handle }
  owned : ∀ e ∈ s.desk.roster.entries, (s.callers e.listener.caller).Owns e.handle
  attended : ∀ h ∈ s.desk.roster.handles, s.Attended h

@[simp] theorem callers_put_self (i : Nat) (p : Progress) (desk : Desk) (s : Scene) :
    (s.put i p desk).callers i = p := if_pos rfl

theorem callers_put_of_ne {i j : Nat} (other : j ≠ i) (p : Progress) (desk : Desk) (s : Scene) :
    (s.put i p desk).callers j = s.callers j := if_neg other

/-! ## Single steps -/

section

variable {s : Scene} {i : Nat} {p q : Progress} {h : Handle} {desk : Desk}

theorem owns_put (here : s.callers i = p) {j : Nat} (owned : (s.callers j).Owns h)
    (still : p.Owns h → q.Owns h) : ((s.put i q desk).callers j).Owns h := by
  by_cases this : j = i
  · rw [this, here] at owned
    rw [this, callers_put_self]
    exact still owned
  · rwa [callers_put_of_ne this]

/-- Whoever does not take the step attends to the handle as before. -/
theorem attended_put (here : s.callers i = p) (attended : s.Attended h)
    (still : p.Attends h → (s.put i q desk).Attended h)
    (kept : ∀ obituaries, s.desk.rest.ends h = some (true, obituaries) → obituaries ≠ [] →
      (s.put i q desk).Attended h) : (s.put i q desk).Attended h := by
  rcases attended with ⟨j, attending⟩ | ⟨obituaries, ends, some⟩
  · by_cases this : j = i
    · rw [this, here] at attending
      exact still attending
    · exact .inl ⟨j, by rwa [callers_put_of_ne this]⟩
  · exact kept obituaries ends some

theorem attended_of_attends (attends : q.Attends h) : (s.put i q desk).Attended h :=
  .inl ⟨i, by rwa [callers_put_self]⟩

end

namespace Sound

variable {s : Scene} {i : Nat} {p q : Progress} {h : Handle}

/-- Nobody is on the roster. -/
theorem start (mail : Mailboxes Unit) (callers : Nat → Progress) :
    Sound { desk := { rest := mail }, callers } where
  wellFormed := .empty
  remotes := by simp [Roster.entries]
  owned := by simp [Roster.entries]
  attended := by simp [Roster.handles, Roster.entries]

/-- A step by which only the caller comes further, and after which it still attends to whom it
attended to. -/
theorem onward (sound : s.Sound) (here : s.callers i = p)
    (attends : ∀ g, p.Attends g → q.Attends g) (owns : ∀ g, p.Owns g → q.Owns g) :
    (s.put i q s.desk).Sound where
  wellFormed := sound.wellFormed
  remotes := sound.remotes
  owned e mem := owns_put here (sound.owned e mem) (owns _)
  attended g known := by
    refine attended_put here (sound.attended g known) ?_ ?_
    · exact fun attending => attended_of_attends (attends g attending)
    · exact fun obituaries ends some => .inr ⟨obituaries, ends, some⟩

/-- A caller whose subscription comes onto the roster. -/
theorem joined (sound : s.Sound) (here : s.callers i = .registering h)
    (new : h ∉ s.desk.roster.handles) :
    (s.put i (.listed h) (s.desk.register h ⟨i, { handle := h }⟩).2).Sound := by
  have entries : (s.desk.register h ⟨i, { handle := h }⟩).2.roster.entries =
      s.desk.roster.entries ++ [⟨h, i, { handle := h }⟩] :=
    Roster.entries_register sound.wellFormed new _
  have mem_iff {e : Entry Subscription} :
      e ∈ (s.put i (.listed h) (s.desk.register h ⟨i, { handle := h }⟩).2).desk.roster.entries ↔
        e ∈ s.desk.roster.entries ∨ e = ⟨h, i, { handle := h }⟩ := by
    rw [put, entries, List.mem_append, List.mem_singleton]
  refine ⟨sound.wellFormed.register h _, fun e mem => ?_, fun e mem => ?_, fun g known => ?_⟩
  · rcases mem_iff.mp mem with old | rfl
    · exact sound.remotes e old
    · rfl
  · rcases mem_iff.mp mem with old | rfl
    · exact owns_put here (sound.owned e old) False.elim
    · rw [callers_put_self]
      rfl
  · obtain ⟨e, mem, rfl⟩ := List.mem_map.mp known
    rcases mem_iff.mp mem with old | rfl
    · refine attended_put here (sound.attended _ (List.mem_map_of_mem old)) False.elim ?_
      exact fun obituaries ends some => .inr ⟨obituaries, ends, some⟩
    · exact attended_of_attends rfl

/-- A caller who takes a handle off the roster, and has attended to nobody else. -/
theorem left (sound : s.Sound) (here : s.callers i = p) (attends : ∀ g, p.Attends g → g = h)
    (owns : ∀ g, p.Owns g → g = h) :
    (s.put i q (s.desk.unregister h).2).Sound := by
  have entries : (s.desk.unregister h).2.roster.entries =
      s.desk.roster.entries.filter (·.handle ≠ h) :=
    Roster.entries_unregister sound.wellFormed h
  have of_mem {e : Entry Subscription}
      (mem : e ∈ (s.put i q (s.desk.unregister h).2).desk.roster.entries) :
      e ∈ s.desk.roster.entries ∧ e.handle ≠ h := by
    rw [put, entries, List.mem_filter] at mem
    simpa using mem
  refine ⟨sound.wellFormed.unregister h, fun e mem => ?_, fun e mem => ?_, fun g known => ?_⟩
  · exact sound.remotes e (of_mem mem).1
  · obtain ⟨old, other⟩ := of_mem mem
    exact owns_put here (sound.owned e old) fun owned => absurd (owns _ owned) other
  · obtain ⟨e, mem, rfl⟩ := List.mem_map.mp known
    obtain ⟨old, other⟩ := of_mem mem
    refine attended_put here (sound.attended _ (List.mem_map_of_mem old)) ?_ ?_
    · exact fun attending => absurd (attends _ attending) other
    · exact fun obituaries ends some => .inr ⟨obituaries, ends, some⟩

/-- A caller who leaves an obituary. -/
theorem linked (sound : s.Sound) (here : s.callers i = .listed h)
    (alive : s.desk.rest.isAlive h = true) :
    (s.put i (.linked h) { s.desk with
      rest := s.desk.rest.update h fun b =>
        { b with obituaries := b.obituaries ++ [()] } }).Sound where
  wellFormed := sound.wellFormed
  remotes := sound.remotes
  owned e mem := owns_put here (sound.owned e mem) id
  attended g known := by
    by_cases this : g = h
    · subst this
      obtain ⟨b, found, isOpen⟩ := Mailboxes.isAlive_iff.mp alive
      refine .inr ⟨b.obituaries ++ [()], ?_, by simp⟩
      rw [put, Mailboxes.ends_update_self, found, Option.map_some, isOpen]
    · refine attended_put here (sound.attended g known) ?_ fun obituaries ends some => ?_
      · exact fun attending => absurd (Eq.symm attending) this
      · exact .inr ⟨obituaries, (Mailboxes.ends_update_of_ne this _ _).trans ends, some⟩

/-- A caller who closes a mailbox. -/
theorem closed (sound : s.Sound) (here : s.callers i = .killing h) {b : Mailbox Unit}
    (found : Table.find? h s.desk.rest.boxes = some b) :
    (s.put i (.burying h b.obituaries) { s.desk with
      rest := s.desk.rest.update h fun b =>
        { b with isOpen := false, obituaries := [] } }).Sound where
  wellFormed := sound.wellFormed
  remotes := sound.remotes
  owned e mem := owns_put here (sound.owned e mem) False.elim
  attended g known := by
    refine attended_put here (sound.attended g known) False.elim fun obituaries ends some => ?_
    by_cases this : g = h
    · subst this
      -- What was kept for this endpoint is in the hands of the caller now.
      rw [Mailboxes.ends, found, Option.map_some, Option.some.injEq, Prod.mk.injEq] at ends
      exact attended_of_attends ⟨rfl, ends.2 ▸ some⟩
    · exact .inr ⟨obituaries, (Mailboxes.ends_update_of_ne this _ _).trans ends, some⟩

theorem step (sound : s.Sound) (i : Nat) : (s.step i).Sound := by
  have advanced {q : Progress} {desk : Desk}
      (eq : (s.callers i).advance i s.desk = (q, desk)) : s.step i = s.put i q desk := by
    rw [Scene.step, eq]
  cases here : s.callers i with
  | registering h =>
    rw [here] at advanced
    by_cases known : h ∈ s.desk.roster.handles
    · rw [advanced (advance_registering_of_mem known)]
      exact sound.onward here (fun _ => id) (fun _ => id)
    · rw [advanced (advance_registering_of_not_mem known)]
      exact sound.joined here known
  | listed h =>
    rw [here, advance_listed] at advanced
    by_cases alive : s.desk.rest.isAlive h = true
    · rw [advanced (if_pos alive)]
      exact sound.linked here alive
    · rw [advanced (if_neg alive)]
      exact sound.onward here (fun _ => id) (fun _ => id)
  | late h =>
    rw [here] at advanced
    rw [advanced rfl]
    exact sound.left here (fun _ => Eq.symm) (fun _ => Eq.symm)
  | unregistering h =>
    rw [here] at advanced
    rw [advanced rfl]
    exact sound.left here (fun _ => False.elim) (fun _ => False.elim)
  | killing h =>
    rw [here] at advanced
    cases alive : s.desk.rest.isAlive h with
    | false =>
      rw [advanced (advance_killing_of_dead alive)]
      exact sound.onward here (fun _ => False.elim) (fun _ => False.elim)
    | true =>
      obtain ⟨b, found, isOpen⟩ := Mailboxes.isAlive_iff.mp alive
      rw [advanced (advance_killing_of_alive found isOpen)]
      exact sound.closed here found
  | burying h obituaries =>
    rw [here] at advanced
    cases obituaries with
    | nil =>
      rw [advanced rfl]
      exact sound.onward here (fun _ attends => absurd rfl attends.2) (fun _ => id)
    | cons one obituaries =>
      rw [advanced rfl]
      exact sound.left here (fun _ attends => attends.1.symm) (fun _ => False.elim)
  | linked | duplicate | refused | unregistered | killed =>
    rw [here] at advanced
    rw [advanced rfl]
    exact sound.onward here (fun _ => id) (fun _ => id)

theorem play (sound : s.Sound) (schedule : List Nat) : (s.play schedule).Sound := by
  induction schedule generalizing s with
  | nil => exact sound
  | cons i schedule ih => exact ih (sound.step i)

end Sound

theorem callers_play_of_not_mem {i : Nat} {schedule : List Nat} (idle : i ∉ schedule)
    (s : Scene) : (s.play schedule).callers i = s.callers i := by
  induction schedule generalizing s with
  | nil => rfl
  | cons j schedule ih =>
    rw [List.mem_cons, not_or] at idle
    exact (ih idle.2 (s.step j)).trans (callers_put_of_ne idle.1 _ _ _)

end Scene

/-! ## Telling everybody -/

/-- A subscription is told of an event by a call to its endpoint. -/
def listener (l : Subscription) : Listener Desk := fun e =>
  modifyGet (Session.restPart.lift (Remote.send (Mailboxes.carrier Unit) l.remote e))

/-- What a live endpoint answers: a call that is too large is not sent. -/
theorem send_of_isAlive {mail : Mailboxes Unit} {r : Remote} (alive : mail.isAlive r.handle = true)
    (e : Event) : ∃ answer mail', Remote.send (Mailboxes.carrier Unit) r e mail = (answer, mail') ∧
      (∀ h, answer ≠ .error (.unavailable h .deadObject)) ∧
      ∀ g, mail'.isAlive g = mail.isAlive g := by
  by_cases fits : maxParcelSize < (r.call e).bytes.length
  · refine ⟨.error (.unavailable r.handle (.tooLarge (r.call e).bytes.length maxParcelSize)), mail,
      ?_, by simp, fun _ => rfl⟩
    simp [Remote.send, Mailboxes.carrier, Mailboxes.post, fits]
  · refine ⟨.ok (), mail.update r.handle (·.push (.call (r.call e))), ?_, by simp, fun g => ?_⟩
    · simp [Remote.send, Mailboxes.carrier, Mailboxes.post, fits, alive]
    · exact Mailboxes.isAlive_update (f := (·.push _)) (fun _ => rfl) mail r.handle g

/-- Calls to live endpoints, none of which finds its endpoint dead. -/
theorem exists_turns (e : Event) {es : List (Entry Subscription)} {desk : Desk}
    (alive : ∀ l ∈ es, desk.rest.isAlive l.listener.remote.handle = true) :
    ∃ ts u, Session.Turns (listener · e) desk ts u ∧ ts.map (·.entry) = es ∧
      ∀ t ∈ ts, ∀ h, t.answer ≠ .error (.unavailable h .deadObject) := by
  induction es generalizing desk with
  | nil => exact ⟨[], desk, .nil desk, rfl, by simp⟩
  | cons l es ih =>
    obtain ⟨answer, mail, sent, undead, same⟩ := send_of_isAlive (alive l List.mem_cons_self) e
    let t : Session.Turn Subscription (Mailboxes Unit) :=
      ⟨l, desk, answer, { desk with rest := mail }⟩
    have called : listener t.entry.listener e t.before = .ok t.answer t.after := by
      rw [listener, Act.modifyGet_apply]
      simp [t, Part.lift, Session.restPart, sent]
    have later : ∀ k ∈ es, t.next.rest.isAlive k.listener.remote.handle = true := by
      intro k mem
      rw [t.rest_next]
      exact (same _).trans (alive k (List.mem_cons_of_mem _ mem))
    obtain ⟨ts, u, turns, entries, answers⟩ := ih later
    refine ⟨t :: ts, u, .cons called turns, by simp [t, entries], ?_⟩
    intro t' mem
    rcases List.mem_cons.mp mem with rfl | mem
    · exact undead
    · exact answers t' mem

/-! ## Whole schedules -/

namespace Scene.Sound

variable {s : Scene}

/-- A caller who was refused has no subscription on the roster. -/
theorem unowned (sound : s.Sound) {i : Nat} {h : Handle} (refused : s.callers i = .refused h)
    {e : Entry Subscription} (mem : e ∈ s.desk.roster.entries) : e.listener.caller ≠ i := by
  intro own
  have owned := sound.owned e mem
  rw [own, refused] at owned
  exact owned

/-- Whoever is on the roster while no caller is under way is alive. -/
theorem alive (sound : s.Sound) (quiet : ∀ i, ¬ (s.callers i).UnderWay) {h : Handle}
    (known : h ∈ s.desk.roster.handles) : s.desk.rest.isAlive h = true := by
  rcases sound.attended h known with ⟨i, attends⟩ | ⟨obituaries, ends, -⟩
  · exact absurd attends.underWay (quiet i)
  · rw [Mailboxes.isAlive_eq_ends, ends]
    rfl

/-- Everybody is told of the event, and nobody is found dead. -/
theorem notify (sound : s.Sound) (quiet : ∀ i, ¬ (s.callers i).UnderWay) (e : Event) :
    ∃ report u ts, Session.notify listener e s.desk = .ok report u ∧
      Session.Turns (listener · e) s.desk ts u ∧ ts.map (·.entry) = s.desk.roster.entries ∧
      ∀ t ∈ ts, ∀ h, t.answer ≠ .error (.unavailable h .deadObject) := by
  have alive : ∀ l ∈ s.desk.roster.entries,
      s.desk.rest.isAlive l.listener.remote.handle = true := by
    intro l mem
    rw [sound.remotes l mem]
    exact sound.alive quiet (List.mem_map_of_mem mem)
  obtain ⟨ts, u, turns, entries, answers⟩ := exists_turns e alive
  have calls := turns.callEach_eq {}
  rw [entries] at calls
  exact ⟨_, u, ts, calls, turns, entries, answers⟩

end Scene.Sound

/-- Whatever callers are about when nobody is on the roster, and in whatever order they take their
steps then: who was refused has no subscription on the roster. Whenever no caller is under way
everybody on the roster is alive, and an event that they are told of finds nobody dead. -/
theorem Scene.none_dead_stays (mail : Mailboxes Unit) (callers : Nat → Progress)
    (schedule : List Nat) :
    let s := Scene.play schedule { desk := { rest := mail }, callers }
    (∀ i h, s.callers i = .refused h → ∀ e ∈ s.desk.roster.entries, e.listener.caller ≠ i) ∧
      ((∀ i, ¬ (s.callers i).UnderWay) →
        (∀ h ∈ s.desk.roster.handles, s.desk.rest.isAlive h = true) ∧
        ∀ e, ∃ report u ts, Session.notify listener e s.desk = .ok report u ∧
          Session.Turns (listener · e) s.desk ts u ∧ ts.map (·.entry) = s.desk.roster.entries ∧
          ∀ t ∈ ts, ∀ h, t.answer ≠ .error (.unavailable h .deadObject)) := by
  intro s
  have sound : s.Sound := (Sound.start mail callers).play schedule
  refine ⟨fun i h refused e mem => sound.unowned refused mem, fun quiet => ⟨?_, ?_⟩⟩
  · exact fun h known => sound.alive quiet known
  · exact fun e => sound.notify quiet e

/-- The first caller registers an endpoint that the second one kills, and the fifth one takes it off
the roster. The third one comes onto the roster behind that, goes off it by the obituary of the
first, and is refused. The fourth one registers another endpoint meanwhile. -/
theorem Scene.none_dead_stays_killing :
    let a : Handle := ⟨1, none⟩
    let b : Handle := ⟨2, none⟩
    let mail : Mailboxes Unit := Mailboxes.enroll b (Mailboxes.enroll a {})
    let callers : Nat → Progress
      | 0 => .registering a
      | 1 => .killing a
      | 2 => .registering a
      | 3 => .registering b
      | _ => .unregistering a
    let s := Scene.play [0, 0, 1, 4, 2, 3, 1, 2, 1, 3, 2] { desk := { rest := mail }, callers }
    s.callers 0 = .linked a ∧ s.callers 1 = .killed a true ∧ s.callers 2 = .refused a ∧
      s.callers 4 = .unregistered a true ∧ s.desk.roster.handles = [b] ∧
      s.desk.rest.isAlive b = true ∧ ∀ e ∈ s.desk.roster.entries, e.listener.caller ≠ 2 := by
  intro a b mail callers
  have ended :
      let s := Scene.play [0, 0, 1, 4, 2, 3, 1, 2, 1, 3, 2] { desk := { rest := mail }, callers }
      s.callers 0 = .linked a ∧ s.callers 1 = .killed a true ∧ s.callers 2 = .refused a ∧
        s.callers 3 = .linked b ∧ s.callers 4 = .unregistered a true ∧
        s.desk.roster.handles = [b] := by
    decide +kernel
  have others (i : Nat) : (Scene.play [0, 0, 1, 4, 2, 3, 1, 2, 1, 3, 2]
      { desk := { rest := mail }, callers }).callers (i + 5) = .unregistering a := by
    rw [callers_play_of_not_mem (by simp)]
    rfl
  have account := Scene.none_dead_stays mail callers [0, 0, 1, 4, 2, 3, 1, 2, 1, 3, 2]
  generalize Scene.play [0, 0, 1, 4, 2, 3, 1, 2, 1, 3, 2] { desk := { rest := mail }, callers } = s
    at ended others account ⊢
  obtain ⟨first, second, third, fourth, fifth, listed⟩ := ended
  obtain ⟨unowned, quiet⟩ := account
  have none (i : Nat) : ¬ (s.callers i).UnderWay := by
    match i with
    | 0 => simp [first, UnderWay]
    | 1 => simp [second, UnderWay]
    | 2 => simp [third, UnderWay]
    | 3 => simp [fourth, UnderWay]
    | 4 => simp [fifth, UnderWay]
    | i + 5 => simp [others, UnderWay]
  refine ⟨first, second, third, fifth, listed, (quiet none).1 b ?_, unowned 2 a third⟩
  rw [listed]
  exact List.mem_singleton_self b

end Subscription

end StorageBus
