import StorageBus.Proofs.Endpoint.Mailboxes
import StorageBus.Proofs.Observation

/-!
# Mailboxes that are served

A hub has mailboxes and behind each a receiver, to which the worker of the mailbox hands its calls.
The receivers share a state of their own, and every call of a listener is noted.

## Main definitions

* `Hub` — mailboxes with receivers; `Hub.send`, `Hub.mark`, `Hub.work` — what happens to them.
* `Hub.Serving` — how far the events that were sent to an endpoint have come.

## Main results

* `Hub.Serving.send`, `Hub.Serving.mark`, `Hub.Serving.work` — each step keeps this.
* `Hub.Serving.heard_of_passed` — what a marker that was passed tells.
-/
namespace StorageBus

variable {σ : Type}

/-! ## Hubs -/

structure Hub (σ : Type) where
  mail : Mailboxes Unit := {}
  /-- Who serves the mailboxes. -/
  receivers : Table Handle (Receiver σ) := []
  /-- The events that listeners were called with, each with its endpoint, the earliest first. -/
  heard : List (Handle × Event) := []
  /-- What the receivers act on. -/
  rest : σ

namespace Hub

def mailPart : Part (Hub σ) (Mailboxes Unit) := ⟨mail, fun v hub => { hub with mail := v }⟩

/-- The events that the listener at an endpoint was called with. -/
def heardBy (h : Handle) (hub : Hub σ) : List Event :=
  hub.heard.filterMap fun (g, e) => if g = h then some e else none

/-- A new endpoint with a receiver. -/
def enroll (h : Handle) (r : Receiver σ) (hub : Hub σ) : Hub σ :=
  { hub with mail := hub.mail.enroll h, receivers := Table.add h r hub.receivers }

/-- Sends an event to an endpoint. -/
def send (remote : Remote) (e : Event) : Hub σ → Except Fault Unit × Hub σ :=
  remote.send ((Mailboxes.carrier Unit).on mailPart) e

/-- Puts a marker into a mailbox. -/
def mark (h : Handle) (ticket : Nat) : Hub σ → Bool × Hub σ :=
  mailPart.lift (Mailboxes.mark h ticket)

/-- Whether the worker has passed the marker. -/
def HasPassed (h : Handle) (ticket : Nat) (hub : Hub σ) : Prop :=
  ∃ b, Table.find? h hub.mail.boxes = some b ∧ ticket ∈ b.passed

/-- Hands a call on to whoever serves the mailbox. -/
def handOn (h : Handle) (c : Call) (hub : Hub σ) : Hub σ :=
  match Table.find? h hub.receivers with
  | none => hub
  | some r =>
    let (heard, rest) := (r.noting (h, ·)).attend c (hub.heard, hub.rest)
    { hub with heard, rest }

/-- A step of a worker, who hands on the call that it gives out. -/
def work (h : Handle) (v : Mailbox.Move) (hub : Hub σ) : Hub σ :=
  let (c, hub) := mailPart.lift (Mailboxes.move h v) hub
  c.elim hub (hub.handOn h)

/-- Steps of workers one after the other. -/
def works (steps : List (Handle × Mailbox.Move)) (hub : Hub σ) : Hub σ :=
  steps.foldl (fun hub (h, v) => hub.work h v) hub

/-! ## Single steps -/

@[simp] theorem mail_handOn (h : Handle) (c : Call) (hub : Hub σ) :
    (hub.handOn h c).mail = hub.mail := by
  unfold handOn
  split <;> rfl

@[simp] theorem receivers_handOn (h : Handle) (c : Call) (hub : Hub σ) :
    (hub.handOn h c).receivers = hub.receivers := by
  unfold handOn
  split <;> rfl

theorem work_eq (h : Handle) (v : Mailbox.Move) (hub : Hub σ) :
    hub.work h v = (hub.mail.move h v).1.elim { hub with mail := (hub.mail.move h v).2 }
      (Hub.handOn h · { hub with mail := (hub.mail.move h v).2 }) := rfl

@[simp] theorem mail_work (h : Handle) (v : Mailbox.Move) (hub : Hub σ) :
    (hub.work h v).mail = (hub.mail.move h v).2 := by
  rw [work_eq]
  obtain ⟨c | c, mail⟩ := hub.mail.move h v
  · rfl
  · exact mail_handOn _ _ _

@[simp] theorem receivers_work (h : Handle) (v : Mailbox.Move) (hub : Hub σ) :
    (hub.work h v).receivers = hub.receivers := by
  rw [work_eq]
  obtain ⟨c | c, mail⟩ := hub.mail.move h v
  · rfl
  · exact receivers_handOn _ _ _

/-- Three steps of a worker without anything between them are a turn of it. -/
theorem works_eq_turns (h : Handle) (hub : Hub σ) :
    hub.works [(h, .take), (h, .check), (h, .release)] =
      Mailboxes.turns mailPart handOn h 1 hub := by
  obtain ⟨mail, receivers, heard, rest⟩ := hub
  simp only [works, List.foldl, work_eq, Mailboxes.turns, Part.lift, mailPart, Mailboxes.turn]
  cases found : Table.find? h mail.boxes with
  | none => simp [Mailboxes.move, found]
  | some b =>
    simp [Mailboxes.move, Mailboxes.update, Mailbox.move, found, Mailbox.turn]

theorem heardBy_handOn_of_ne {g h : Handle} (other : g ≠ h) (c : Call) (hub : Hub σ) :
    (hub.handOn h c).heardBy g = hub.heardBy g := by
  unfold handOn
  split
  · rfl
  · next r found =>
    have notes := r.noting_attend_cases (h, ·) c hub.heard hub.rest
    simp only [heardBy]
    rcases notes with same | ⟨e, one⟩
    · rw [same]
    · rw [one, List.filterMap_append]
      simp [Ne.symm other]

theorem heardBy_work_of_ne {g h : Handle} (other : g ≠ h) (v : Mailbox.Move) (hub : Hub σ) :
    (hub.work h v).heardBy g = hub.heardBy g := by
  rw [work_eq]
  obtain ⟨c | c, mail⟩ := hub.mail.move h v
  · rfl
  · exact heardBy_handOn_of_ne other c _

theorem find?_enroll {h : Handle} {hub : Hub σ} (newcomer : Table.find? h hub.mail.boxes = none)
    (r : Receiver σ) : Table.find? h (hub.enroll h r).mail.boxes = some {} := by
  rw [enroll, Mailboxes.enroll, Table.find?_add, newcomer, if_pos rfl]
  rfl

theorem ends_enroll {h : Handle} {hub : Hub σ} (newcomer : Table.find? h hub.mail.boxes = none)
    (r : Receiver σ) (g : Handle) :
    (hub.enroll h r).mail.ends g = if g = h then some (true, []) else hub.mail.ends g :=
  Mailboxes.ends_enroll newcomer g

theorem mark_of_isAlive {h : Handle} {hub : Hub σ} (alive : hub.mail.isAlive h = true)
    (ticket : Nat) : hub.mark h ticket =
      (true, { hub with mail := hub.mail.update h (·.push (.marker ticket)) }) := by
  have isAlive : (mailPart.get hub).isAlive h = true := alive
  rw [mark, Part.lift, Mailboxes.mark, if_pos isAlive]
  rfl

theorem mark_of_dead {h : Handle} {hub : Hub σ} (dead : ¬ hub.mail.isAlive h = true)
    (ticket : Nat) : hub.mark h ticket = (false, hub) := by
  have isDead : ¬ (mailPart.get hub).isAlive h = true := dead
  rw [mark, Part.lift, Mailboxes.mark, if_neg isDead]
  rfl

theorem ends_send (remote : Remote) (e : Event) (hub : Hub σ) (g : Handle) :
    (hub.send remote e).2.mail.ends g = hub.mail.ends g := by
  have posted := Mailboxes.ends_post remote.handle (remote.call e) hub.mail g
  have eq : hub.send remote e = remote.send ((Mailboxes.carrier Unit).on mailPart) e hub := rfl
  unfold Remote.send at eq
  generalize result : ((Mailboxes.carrier Unit).on mailPart).transact remote.handle
    remote.descriptor (remote.call e) hub = r at eq
  have state : (hub.send remote e).2 = r.2 := by
    rw [eq]
    obtain ⟨answer | failure, after⟩ := r <;> rfl
  rw [state, ← result]
  exact posted

theorem ends_mark (h : Handle) (ticket : Nat) (hub : Hub σ) (g : Handle) :
    (hub.mark h ticket).2.mail.ends g = hub.mail.ends g :=
  Mailboxes.ends_mark h ticket hub.mail g

theorem ends_works (steps : List (Handle × Mailbox.Move)) (hub : Hub σ) (g : Handle) :
    (hub.works steps).mail.ends g = hub.mail.ends g := by
  induction steps generalizing hub with
  | nil => rfl
  | cons step steps ih =>
    obtain ⟨h, v⟩ := step
    have first : (hub.work h v).mail.ends g = hub.mail.ends g := by
      rw [mail_work, Mailboxes.ends_move]
    exact (ih _).trans first

/-- Where nothing was opened or closed, the same endpoints are alive. -/
theorem isAlive_congr {h : Handle} {hub after : Hub σ}
    (same : after.mail.ends h = hub.mail.ends h) :
    after.mail.isAlive h = hub.mail.isAlive h := by
  rw [Mailboxes.isAlive_eq_ends, Mailboxes.isAlive_eq_ends, same]

/-- Steps of one worker are steps on its mailbox. -/
theorem find?_works {h : Handle} {hub : Hub σ} {b : Mailbox Unit}
    (found : Table.find? h hub.mail.boxes = some b) (vs : List Mailbox.Move) :
    Table.find? h (hub.works (vs.map (h, ·))).mail.boxes = some (b.moves vs).2 := by
  induction vs generalizing hub b with
  | nil => exact found
  | cons v vs ih =>
    have next : Table.find? h (hub.work h v).mail.boxes = some (b.move v).2 := by
      rw [mail_work, (hub.mail.find?_move found v h).2, if_pos rfl]
    exact ih next

/-! ## Endpoints that do not exist -/

/-- There is no such endpoint, and nothing was heard at it. -/
structure Unknown (h : Handle) (hub : Hub σ) : Prop where
  box : Table.find? h hub.mail.boxes = none
  receiver : Table.find? h hub.receivers = none
  notes : hub.heardBy h = []

namespace Unknown

variable {h : Handle} {hub : Hub σ}

theorem enroll (unknown : hub.Unknown h) {g : Handle} (other : h ≠ g) (r : Receiver σ) :
    (hub.enroll g r).Unknown h where
  box := by rw [Hub.enroll, Mailboxes.enroll, Table.find?_add, unknown.box, if_neg other.symm]; rfl
  receiver := by rw [Hub.enroll, Table.find?_add, unknown.receiver, if_neg other.symm]; rfl
  notes := unknown.notes

theorem update (unknown : hub.Unknown h) (g : Handle) (f : Mailbox Unit → Mailbox Unit) :
    Unknown h { hub with mail := hub.mail.update g f } where
  box := by
    rw [Mailboxes.find?_update]
    split
    · next same => rw [← same, unknown.box, Option.map_none]
    · exact unknown.box
  receiver := unknown.receiver
  notes := unknown.notes

theorem mark (unknown : hub.Unknown h) (g : Handle) (ticket : Nat) :
    (hub.mark g ticket).2.Unknown h := by
  by_cases alive : hub.mail.isAlive g = true
  · rw [mark_of_isAlive alive]
    exact unknown.update g _
  · rw [mark_of_dead alive]
    exact unknown

theorem work (unknown : hub.Unknown h) (g : Handle) (v : Mailbox.Move) :
    (hub.work g v).Unknown h := by
  by_cases same : h = g
  · subst same
    rw [work_eq, Mailboxes.move, unknown.box]
    exact unknown
  · refine ⟨?_, by rw [receivers_work]; exact unknown.receiver, ?_⟩
    · rw [mail_work]
      cases found : Table.find? g hub.mail.boxes with
      | none =>
        rw [Mailboxes.move, found]
        exact unknown.box
      | some b =>
        rw [(Mailboxes.find?_move found v h).2, if_neg same]
        exact unknown.box
    · rw [heardBy_work_of_ne same]
      exact unknown.notes

theorem works (unknown : hub.Unknown h) (steps : List (Handle × Mailbox.Move)) :
    (hub.works steps).Unknown h := by
  induction steps generalizing hub with
  | nil => exact unknown
  | cons step steps ih => exact ih (unknown.work step.1 step.2)

end Unknown

/-! ## Serving -/

/-- How far the events sent to an endpoint have come: those that its listener has heard are the
first of those that were told, and the others wait in the mailbox. A listener behind another
descriptor hears nothing. -/
structure Serving (r : Receiver σ) (remote : Remote) (posted : List Job) (told heard : List Event)
    (hub : Hub σ) : Prop where
  box : ∃ b done, Table.find? remote.handle hub.mail.boxes = some b ∧
    b.Keeps posted done (heard.map remote.call)
  receiver : Table.find? remote.handle hub.receivers = some r
  notes : hub.heardBy remote.handle = if remote.descriptor = r.descriptor then heard else []
  calls : Mailbox.calls posted = told.map remote.call
  heard_prefix : heard <+: told
  fits : ∀ e ∈ told, remote.Fits e

/-- A call that a mailbox gives out next is the call of the event that comes next. -/
theorem exists_next {remote : Remote} {told heard : List Event} (first : heard <+: told) {c : Call}
    (more : heard.map remote.call ++ [c] <+: told.map remote.call) :
    ∃ e, heard ++ [e] <+: told ∧ remote.call e = c := by
  obtain ⟨waiting, rfl⟩ := first
  rw [List.map_append, List.prefix_append_right_inj] at more
  cases waiting with
  | nil => simp at more
  | cons e waiting =>
    rw [List.map_cons, List.cons_prefix_cons] at more
    exact ⟨e, by simp, more.1.symm⟩

namespace Serving

variable {r : Receiver σ} {remote : Remote} {posted : List Job} {told heard : List Event}
  {hub : Hub σ}

theorem enroll {h : Handle} (newcomer : Table.find? h hub.mail.boxes = none)
    (unserved : Table.find? h hub.receivers = none) (unheard : hub.heardBy h = [])
    (r : Receiver σ) (descriptor : String) :
    Serving r ⟨h, descriptor⟩ [] [] [] (hub.enroll h r) where
  box := by
    exact ⟨{}, [], find?_enroll newcomer r, .fresh⟩
  receiver := by
    rw [Hub.enroll, Table.find?_add, unserved, if_pos rfl]
    rfl
  notes := by
    split <;> exact unheard
  calls := rfl
  heard_prefix := List.prefix_rfl
  fits := by simp

/-- A step that changes nothing about the endpoint. -/
theorem other (serving : hub.Serving r remote posted told heard) {after : Hub σ}
    (box : Table.find? remote.handle after.mail.boxes = Table.find? remote.handle hub.mail.boxes)
    (receivers : Table.find? remote.handle after.receivers =
      Table.find? remote.handle hub.receivers)
    (heardBy : after.heardBy remote.handle = hub.heardBy remote.handle) :
    after.Serving r remote posted told heard where
  box := by
    rw [box]
    exact serving.box
  receiver := receivers.trans serving.receiver
  notes := heardBy.trans serving.notes
  calls := serving.calls
  heard_prefix := serving.heard_prefix
  fits := serving.fits

theorem enroll_other (serving : hub.Serving r remote posted told heard) {h : Handle}
    (other : remote.handle ≠ h) (newcomer : Receiver σ) :
    (hub.enroll h newcomer).Serving r remote posted told heard := by
  refine serving.other ?_ ?_ rfl
  · rw [Hub.enroll, Mailboxes.enroll, Table.find?_add, if_neg other.symm, Option.or_none]
  · rw [Hub.enroll, Table.find?_add, if_neg other.symm, Option.or_none]

theorem update_other (serving : hub.Serving r remote posted told heard) {h : Handle}
    (other : remote.handle ≠ h) (f : Mailbox Unit → Mailbox Unit) :
    Serving r remote posted told heard { hub with mail := hub.mail.update h f } :=
  serving.other (by rw [Mailboxes.find?_update, if_neg other]) rfl rfl

/-- A mailbox that keeps what it kept, up to jobs that were posted to it. -/
theorem changeBox (serving : hub.Serving r remote posted told heard) (jobs : List Job)
    (es : List Event) {f : Mailbox Unit → Mailbox Unit}
    (keeps : ∀ {b done given}, b.Keeps posted done given →
      (f b).Keeps (posted ++ jobs) done given)
    (calls : Mailbox.calls jobs = es.map remote.call) (fits : ∀ e ∈ es, remote.Fits e) :
    Serving r remote (posted ++ jobs) (told ++ es) heard
      { hub with mail := hub.mail.update remote.handle f } where
  box := by
    obtain ⟨b, done, found, kept⟩ := serving.box
    exact ⟨f b, done, Mailboxes.find?_update_self found f, keeps kept⟩
  receiver := serving.receiver
  notes := serving.notes
  calls := by rw [Mailbox.calls_append, serving.calls, calls, List.map_append]
  heard_prefix := serving.heard_prefix.trans (List.prefix_append _ _)
  fits e mem := by
    rcases List.mem_append.mp mem with mem | mem
    · exact serving.fits e mem
    · exact fits e mem

/-! ### The worker -/

theorem work (serving : hub.Serving r remote posted told heard) (v : Mailbox.Move) :
    ∃ more, (hub.work remote.handle v).Serving r remote posted told (heard ++ more) := by
  obtain ⟨b, done, found, kept⟩ := serving.box
  obtain ⟨moreDone, kept⟩ := kept.move v
  obtain ⟨released, found'⟩ := hub.mail.find?_move found v remote.handle
  rw [if_pos rfl] at found'
  rw [work_eq, released]
  cases call : (b.move v).1 with
  | none =>
    rw [call, Option.toList_none, List.append_nil] at kept
    refine ⟨[], ?_⟩
    rw [List.append_nil]
    exact ⟨⟨_, _, found', kept⟩, serving.receiver, serving.notes, serving.calls,
      serving.heard_prefix, serving.fits⟩
  | some c =>
    rw [call, Option.toList_some] at kept
    obtain ⟨e, first, rfl⟩ := exists_next serving.heard_prefix
      (serving.calls ▸ kept.given_prefix_posted)
    have fits : remote.Fits e := serving.fits e (first.subset (by simp))
    refine ⟨[e], ?_, ?_, ?_, serving.calls, first, serving.fits⟩
    · refine ⟨_, _, ?_, by rwa [List.map_append]⟩
      rw [Option.elim_some, mail_handOn]
      exact found'
    · rw [Option.elim_some, receivers_handOn]
      exact serving.receiver
    · rw [Option.elim_some, handOn]
      simp only [serving.receiver, heardBy, r.noting_attend _ remote fits]
      have notes := serving.notes
      unfold heardBy at notes
      rw [List.filterMap_append, notes]
      split <;> simp

theorem work_other (serving : hub.Serving r remote posted told heard) {g : Handle}
    (other : remote.handle ≠ g) (v : Mailbox.Move) :
    (hub.work g v).Serving r remote posted told heard := by
  refine serving.other ?_ (by rw [receivers_work]) (heardBy_work_of_ne other v hub)
  rw [mail_work]
  cases found : Table.find? g hub.mail.boxes with
  | none => rw [Mailboxes.move, found]
  | some b => rw [(Mailboxes.find?_move found v remote.handle).2, if_neg other]

theorem works (serving : hub.Serving r remote posted told heard)
    (steps : List (Handle × Mailbox.Move)) :
    ∃ more, (hub.works steps).Serving r remote posted told (heard ++ more) := by
  induction steps generalizing hub heard with
  | nil => exact ⟨[], by rwa [List.append_nil]⟩
  | cons step steps ih =>
    obtain ⟨g, v⟩ := step
    by_cases this : remote.handle = g
    · subst this
      obtain ⟨one, next⟩ := serving.work v
      obtain ⟨more, rest⟩ := ih next
      exact ⟨one ++ more, by rwa [← List.append_assoc]⟩
    · exact ih (serving.work_other this v)

/-! ### Sending -/

theorem send_of_over (hub : Hub σ) {e : Event} (exceeds : ¬ remote.Fits e) :
    hub.send remote e = (.error (.unavailable remote.handle
      (.tooLarge (e.encodeCall remote.descriptor).size maxParcelSize)), hub) := by
  have large : maxParcelSize < (remote.call e).bytes.length := Nat.lt_of_not_le exceeds
  simp only [Hub.send, Remote.send, Carrier.on, Mailboxes.carrier, Part.lift, Mailboxes.post,
    if_pos large]
  rfl

theorem send_of_fits {hub : Hub σ} {e : Event} (fits : remote.Fits e)
    (alive : hub.mail.isAlive remote.handle = true) :
    hub.send remote e = (.ok (), { hub with
      mail := hub.mail.update remote.handle (·.push (.call (remote.call e))) }) := by
  have small : ¬ maxParcelSize < (remote.call e).bytes.length := Nat.not_lt.mpr fits
  have isAlive : (mailPart.get hub).isAlive remote.handle = true := alive
  simp only [Hub.send, Remote.send, Carrier.on, Mailboxes.carrier, Part.lift, Mailboxes.post,
    if_neg small, if_pos isAlive]
  rfl

theorem send (serving : hub.Serving r remote posted told heard) {e : Event}
    (fits : remote.Fits e) (alive : hub.mail.isAlive remote.handle = true) :
    (hub.send remote e).2.Serving r remote (posted ++ [.call (remote.call e)]) (told ++ [e])
      heard := by
  rw [send_of_fits fits alive]
  exact serving.changeBox _ [e] (fun keeps => keeps.push _) rfl (by simpa using fits)

/-! ### Markers -/

theorem mark (serving : hub.Serving r remote posted told heard)
    (alive : hub.mail.isAlive remote.handle = true) (ticket : Nat) :
    (hub.mark remote.handle ticket).2.Serving r remote (posted ++ [.marker ticket]) told heard := by
  rw [mark_of_isAlive alive]
  have marked := serving.changeBox [.marker ticket] []
    (fun keeps => keeps.push (.marker ticket)) rfl (by simp)
  rw [List.append_nil] at marked
  exact marked

theorem mark_other (serving : hub.Serving r remote posted told heard) {h : Handle}
    (other : remote.handle ≠ h) (ticket : Nat) :
    (hub.mark h ticket).2.Serving r remote posted told heard := by
  by_cases alive : hub.mail.isAlive h = true
  · rw [mark_of_isAlive alive]
    exact serving.update_other other _
  · rw [mark_of_dead alive]
    exact serving

/-- However far the worker has come, it will pass a marker that was posted if it goes on. -/
theorem exists_passed {ticket : Nat} (serving : hub.Serving r remote posted told heard)
    (waits : .marker ticket ∈ posted) :
    ∃ vs : List Mailbox.Move,
      (hub.works (vs.map (remote.handle, ·))).HasPassed remote.handle ticket := by
  obtain ⟨b, done, found, -⟩ := serving.box
  obtain ⟨vs, idle⟩ := b.exists_idle
  refine ⟨vs, _, find?_works found vs, ?_⟩
  obtain ⟨more, later⟩ := serving.works (vs.map (remote.handle, ·))
  obtain ⟨b', done', found', kept⟩ := later.box
  cases (find?_works found vs).symm.trans found'
  rw [kept.passed, ← kept.done_of_idle idle]
  exact waits

/-- Once a marker was passed at a live endpoint, everything told before it has been heard. -/
theorem heard_of_passed {before after : List Job} {ticket : Nat}
    (serving : hub.Serving r remote (before ++ .marker ticket :: after) told heard)
    (unused : .marker ticket ∉ before) (passed : hub.HasPassed remote.handle ticket)
    (alive : hub.mail.isAlive remote.handle = true) {known : List Event}
    (calls : Mailbox.calls before = known.map remote.call) (first : known <+: told) :
    known <+: heard := by
  obtain ⟨b, done, found, kept⟩ := serving.box
  obtain ⟨b', found', mem⟩ := passed
  cases found.symm.trans found'
  have isOpen : b.isOpen = true := (Mailboxes.isAlive_of_find? found).symm.trans alive
  have given := kept.given_of_passed unused mem isOpen
  rw [calls] at given
  have le : known.length ≤ heard.length := by simpa using given.length_le
  exact List.prefix_of_prefix_length_le first serving.heard_prefix le

end Serving

end Hub

end StorageBus
