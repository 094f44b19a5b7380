import StorageBus.Proofs.Endpoint.Lines
import StorageBus.Proofs.Hub

/-!
# Delivery from end to end

Events that are sent to one live endpoint, through a mailbox or over a line that never fails. Each
is answered by the size of its call alone. The listener is called once for every event whose call
fits, in order, if it implements the interface that the calls are made for, and else never; what it
answers, or whether it panics, makes no difference to the others.

## Main definitions

* `Remote.answer`, `Remote.accepted`, `Remote.hears` — the answer to an event, the events that are
  accepted, and those of them that a receiver's listener hears.
* `Hub.Errand`, `Hub.play` — sending while the worker goes on.
* `Remote.sendEach` — sending one event after the other.

## Main results

* `Hub.play_spec`, `Lines.sendEach_spec` — what was sent, over either carrier.
* `Remote.delivers` — the listener hears exactly what was accepted.
-/
namespace StorageBus

variable {σ ρ : Type}

namespace Remote

/-- The answer of a carrier that can reach the endpoint. -/
def answer (r : Remote) (e : Event) : Except Fault Unit :=
  if r.Fits e then .ok ()
  else .error (.unavailable r.handle
    (.tooLarge (e.encodeCall r.descriptor).size maxParcelSize))

/-- The events whose calls fit into a parcel. -/
def accepted (r : Remote) (es : List Event) : List Event := es.filter (r.Fits ·)

/-- The events that the listener of a receiver hears. -/
def hears (r : Remote) (receiver : Receiver σ) (es : List Event) : List Event :=
  if r.descriptor = receiver.descriptor then r.accepted es else []

theorem accepted_cons (r : Remote) (e : Event) (es : List Event) :
    r.accepted (e :: es) = r.accepted [e] ++ r.accepted es := by
  simp only [accepted, List.filter_cons, List.filter_nil]
  split <;> rfl

theorem fits_of_mem_accepted {r : Remote} {e : Event} {es : List Event}
    (mem : e ∈ r.accepted es) : r.Fits e := by
  simpa using (List.mem_filter.mp mem).2

/-- Sends one event after the other. -/
def sendEach {τ ω : Type} (c : Carrier τ ω) (r : Remote) :
    List Event → τ → List (Except Fault Unit) × τ
  | [], s => ([], s)
  | e :: es, s =>
    let (answer, s) := r.send c e s
    let (answers, s) := sendEach c r es s
    (answer :: answers, s)

theorem sendEach_cons {τ ω : Type} (c : Carrier τ ω) (r : Remote) (e : Event) (es : List Event)
    (s : τ) : sendEach c r (e :: es) s =
      ((r.send c e s).1 :: (sendEach c r es (r.send c e s).2).1,
        (sendEach c r es (r.send c e s).2).2) := rfl

end Remote

/-! ## Through a mailbox -/

namespace Hub

/-- What happens around an endpoint: an event is sent to it, or its worker takes a step. -/
inductive Errand where
  | send (e : Event)
  | work (v : Mailbox.Move)
deriving DecidableEq, Repr

/-- The event that an errand sends. -/
def Errand.event? : Errand → Option Event
  | .send e => some e
  | .work _ => none

/-- Runs errands, and says what the sent events were answered. -/
def play (remote : Remote) : List Errand → Hub σ → List (Except Fault Unit) × Hub σ
  | [], hub => ([], hub)
  | .send e :: errands, hub =>
    let (answer, hub) := hub.send remote e
    let (answers, hub) := play remote errands hub
    (answer :: answers, hub)
  | .work v :: errands, hub => play remote errands (hub.work remote.handle v)

theorem play_send (remote : Remote) (e : Event) (errands : List Errand) (hub : Hub σ) :
    play remote (.send e :: errands) hub =
      ((hub.send remote e).1 :: (play remote errands (hub.send remote e).2).1,
        (play remote errands (hub.send remote e).2).2) := rfl

theorem play_spec {r : Receiver σ} {remote : Remote} {posted : List Job} {told heard : List Event}
    {hub : Hub σ} (serving : hub.Serving r remote posted told heard)
    (unmarked : ∀ ticket, .marker ticket ∉ posted)
    (alive : hub.mail.isAlive remote.handle = true) (errands : List Errand) :
    (play remote errands hub).1 = (errands.filterMap Errand.event?).map remote.answer ∧
      (play remote errands hub).2.mail.isAlive remote.handle = true ∧
      ∃ posted heard, (∀ ticket, .marker ticket ∉ posted) ∧
        (play remote errands hub).2.Serving r remote posted
          (told ++ remote.accepted (errands.filterMap Errand.event?)) heard := by
  induction errands generalizing hub posted told heard with
  | nil =>
    refine ⟨rfl, alive, posted, heard, unmarked, ?_⟩
    rw [List.filterMap_nil, Remote.accepted, List.filter_nil, List.append_nil]
    exact serving
  | cons errand errands ih =>
    cases errand with
    | work v =>
      obtain ⟨more, next⟩ := serving.work v
      exact ih next unmarked ((isAlive_congr (ends_works [(_, v)] hub _)).trans alive)
    | send e =>
      have events : (Errand.send e :: errands).filterMap Errand.event? =
        e :: errands.filterMap Errand.event? := rfl
      rw [events, List.map_cons, Remote.accepted_cons, play_send]
      by_cases fits : remote.Fits e
      · have next := serving.send fits alive
        have alive' := (isAlive_congr (ends_send remote e hub _)).trans alive
        rw [Serving.send_of_fits fits alive] at next alive' ⊢
        obtain ⟨answers, aliveAfter, posted', heard', unmarked', final⟩ :=
          ih next (by simpa using unmarked) alive'
        refine ⟨?_, aliveAfter, posted', heard', unmarked', ?_⟩
        · rw [Remote.answer, if_pos fits, answers]
        · have one : remote.accepted [e] = [e] := by simp [Remote.accepted, fits]
          rw [one, ← List.append_assoc]
          exact final
      · rw [Serving.send_of_over hub fits]
        obtain ⟨answers, aliveAfter, posted', heard', unmarked', final⟩ :=
          ih serving unmarked alive
        refine ⟨?_, aliveAfter, posted', heard', unmarked', ?_⟩
        · rw [Remote.answer, if_neg fits, answers]
        · have none : remote.accepted [e] = [] := by simp [Remote.accepted, fits]
          rw [none, List.nil_append]
          exact final

end Hub

/-- Delivery through a mailbox: however sending and the steps of the worker interleave, the answers
are those to the sizes of the calls, and once a flush is through the listener has heard exactly what
was accepted. A flush does get through. -/
def Remote.DeliversByMail (remote : Remote) (receiver : Receiver σ) : Prop :=
  ∀ hub : Hub σ, Table.find? remote.handle hub.mail.boxes = none →
    Table.find? remote.handle hub.receivers = none → hub.heardBy remote.handle = [] →
    ∀ (errands : List Hub.Errand) (ticket : Nat),
      let played := Hub.play remote errands (hub.enroll remote.handle receiver)
      let marked := played.2.mark remote.handle ticket
      let events := errands.filterMap Hub.Errand.event?
      played.1 = events.map remote.answer ∧ marked.1 = true ∧
        (∃ steps, (marked.2.works steps).HasPassed remote.handle ticket) ∧
        ∀ steps, (marked.2.works steps).HasPassed remote.handle ticket →
          (marked.2.works steps).heardBy remote.handle = remote.hears receiver events

theorem Hub.deliversByMail (remote : Remote) (receiver : Receiver σ) :
    remote.DeliversByMail receiver := by
  intro hub newcomer unserved unheard errands ticket
  have start : (hub.enroll remote.handle receiver).Serving receiver remote [] [] [] :=
    .enroll newcomer unserved unheard receiver remote.descriptor
  have alive : (hub.enroll remote.handle receiver).mail.isAlive remote.handle = true := by
    rw [Mailboxes.isAlive_of_find? (find?_enroll newcomer receiver)]
  obtain ⟨answers, aliveAfter, posted, heard, unmarked, serving⟩ :=
    play_spec start (by simp) alive errands
  rw [List.nil_append] at serving
  have marked := serving.mark aliveAfter ticket
  have aliveMarked := (isAlive_congr (ends_mark remote.handle ticket _ _)).trans aliveAfter
  refine ⟨answers, congrArg Prod.fst (mark_of_isAlive aliveAfter ticket), ?_,
    fun steps passed => ?_⟩
  · have waits : .marker ticket ∈ posted ++ [.marker ticket] := by simp
    obtain ⟨vs, passed⟩ := marked.exists_passed waits
    exact ⟨_, passed⟩
  · obtain ⟨more, final⟩ := marked.works steps
    have all := final.heard_of_passed (unmarked ticket) passed
      ((isAlive_congr (ends_works steps _ _)).trans aliveMarked) serving.calls List.prefix_rfl
    rw [final.notes, final.heard_prefix.eq_of_length_le all.length_le]
    rfl

/-! ## Over a line -/

namespace Lines

variable {ω : Type} {k : Sink ρ} {w : k.Stream}

theorem sendEach_spec (reliable : w.Reliable) (remote : Remote) (ps : Processes) {ls : Lines ρ}
    {line : Line ρ} (held : ls.held? remote.handle = some line) (alive : line.isDead = false)
    (es : List Event) :
    (remote.sendEach (carrier k ps ω) es ls).1 = es.map remote.answer ∧
      ∃ stream, (remote.sendEach (carrier k ps ω) es ls).2.held? remote.handle =
          some { line with stream } ∧
        w.sent stream = w.sent line.stream ++ bytesOf ((remote.accepted es).map remote.call) := by
  induction es generalizing ls line with
  | nil => exact ⟨rfl, line.stream, held, (List.append_nil _).symm⟩
  | cons e es ih =>
    rw [List.map_cons, Remote.accepted_cons, Remote.sendEach_cons]
    by_cases fits : remote.Fits e
    · obtain ⟨stream, sent, bytes⟩ := send_of_reliable reliable held alive (c := remote.call e) fits
      have one : remote.send (carrier k ps ω) e ls =
          (.ok (), ls.update remote.handle fun _ => { line with stream }) := by
        simp only [Remote.send, carrier, sent]
      obtain ⟨found, isHeld⟩ := find?_of_held? held
      have next : (ls.update remote.handle fun _ => { line with stream }).held? remote.handle =
          some { line with stream } := by
        simp [held?, find?_update, found, isHeld]
      obtain ⟨answers, stream', held', bytes'⟩ := ih next alive
      rw [one]
      refine ⟨?_, stream', held', ?_⟩
      · rw [Remote.answer, if_pos fits, answers]
      · have self : remote.accepted [e] = [e] := by simp [Remote.accepted, fits]
        rw [bytes', bytes, self]
        simp [bytesOf]
    · have exceeds : maxParcelSize < (remote.call e).bytes.length := Nat.lt_of_not_le fits
      have one : remote.send (carrier k ps ω) e ls = (.error (.unavailable remote.handle
          (.tooLarge (e.encodeCall remote.descriptor).size maxParcelSize)), ls) := by
        simp only [Remote.send, carrier, send_of_over held alive exceeds]
        rfl
      obtain ⟨answers, stream, held', bytes⟩ := ih held alive
      rw [one]
      refine ⟨?_, stream, held', ?_⟩
      · rw [Remote.answer, if_neg fits, answers]
      · have none : remote.accepted [e] = [] := by simp [Remote.accepted, fits]
        rw [none, List.nil_append]
        exact bytes

end Lines

/-- Delivery over a line on a stream that never fails: the answers are those to the sizes of the
calls, the line stays held, and who reads what was sent to its end calls the listener with exactly
what was accepted. -/
def Remote.DeliversByLine (remote : Remote) (receiver : Receiver σ) : Prop :=
  ∀ (ρ : Type) (k : Sink ρ) (w : k.Stream), w.Reliable →
    ∀ (ps : Processes) (ls : Lines ρ) (stream : ρ), Table.find? remote.handle ls.lines = none →
    ∀ es : List Event,
      let sent := remote.sendEach (Lines.carrier k ps Unit) es (ls.adopt remote.handle stream)
      sent.1 = es.map remote.answer ∧ ∃ line bytes, sent.2.held? remote.handle = some line ∧
        w.sent line.stream = w.sent stream ++ bytes ∧ ∀ src : Source, src.Gives bytes → ∀ s : σ,
          let served := src.serve (fun f => (receiver.noting id).attend ⟨f.code, f.body⟩) ([], s)
          served.1 = .ok (remote.accepted es).length ∧ served.2.1 = remote.hears receiver es

theorem Lines.deliversByLine (remote : Remote) (receiver : Receiver σ) :
    remote.DeliversByLine receiver := by
  intro ρ k w reliable ps ls stream fresh es sent
  have held : (ls.adopt remote.handle stream).held? remote.handle = some { stream } := by
    rw [held?, find?_adopt fresh, if_pos rfl]
    rfl
  obtain ⟨answers, stream', held', bytes⟩ :=
    sendEach_spec reliable remote ps held rfl es (ω := Unit)
  refine ⟨answers, _, _, held', bytes, fun src gives s => ?_⟩
  have fits : ∀ c ∈ (remote.accepted es).map remote.call, c.bytes.length ≤ maxParcelSize := by
    intro c mem
    obtain ⟨e, accepted, rfl⟩ := List.mem_map.mp mem
    exact Remote.fits_of_mem_accepted accepted
  obtain ⟨ended, handed⟩ := served_of_cut fits .nil src (by rwa [List.append_nil]) _
    (fun f => (receiver.noting id).attend ⟨f.code, f.body⟩) ([], s)
  refine ⟨by simpa [Ended] using ended, ?_⟩
  have fitting : ∀ e ∈ remote.accepted es, remote.Fits e := fun e => Remote.fits_of_mem_accepted
  have notes := receiver.notes_of_calls id remote fitting [] s
  rw [List.map_id_fun, List.nil_append] at notes
  simp only [handed]
  exact notes

/-! ## Either way -/

/-- For any two descriptors, any receiver and any events. -/
theorem Remote.delivers (remote : Remote) (receiver : Receiver σ) :
    remote.DeliversByMail receiver ∧ remote.DeliversByLine receiver :=
  ⟨Hub.deliversByMail remote receiver, Lines.deliversByLine remote receiver⟩

/-- Two events for a listener that panics at each of them. -/
theorem Remote.delivers_panicking :
    let remote : Remote := { handle := ⟨1, none⟩ }
    let receiver : Receiver Unit := { listener := fun _ => throw {} }
    let events : List Event := [.volumeForgotten "a", .connectionChanged true]
    let played := Hub.play remote (events.map .send) (Hub.enroll ⟨1, none⟩ receiver { rest := () })
    let sent := remote.sendEach (Lines.carrier (Sink.pipe 2) ⟨1, []⟩ Unit) events
      (Lines.adopt ⟨1, none⟩ [] {})
    (∃ steps, ((played.2.mark ⟨1, none⟩ 0).2.works steps).heardBy ⟨1, none⟩ = events) ∧
      sent.1 = [.ok (), .ok ()] := by
  intro remote receiver events played sent
  have fits : ∀ e ∈ events, remote.Fits e := by decide +kernel
  have accepted : remote.accepted events = events :=
    List.filter_eq_self.mpr fun e mem => decide_eq_true (fits e mem)
  have hears : remote.hears receiver events = events := (if_pos rfl).trans accepted
  obtain ⟨byMail, byLine⟩ := Remote.delivers remote receiver
  constructor
  · obtain ⟨-, -, ⟨steps, passed⟩, heard⟩ := byMail { rest := () } rfl rfl rfl (events.map .send) 0
    exact ⟨steps, (heard steps passed).trans hears⟩
  · obtain ⟨answers, -⟩ := byLine Bytes (Sink.pipe 2) Sink.pipe.stream Sink.pipe.reliable ⟨1, []⟩ {}
      [] rfl events
    exact answers.trans (List.map_congr_left fun e mem => if_pos (fits e mem))

end StorageBus
