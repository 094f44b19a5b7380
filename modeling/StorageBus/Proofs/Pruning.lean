import StorageBus.Proofs.Endpoint.Mailboxes
import StorageBus.Proofs.Endpoint.Lines
import StorageBus.Proofs.Observation
import StorageBus.Proofs.Broadcast.Turns
import StorageBus.Publisher

/-!
# Who is taken off the roster

A roster of remote listeners, some with mailboxes and some with lines, is told of an event. Whoever
fails to take the call goes off the roster, and all others stay on it in their order. A failed call
that fits into a parcel leaves its endpoint dead. But a call that is too large fails as well, at
every endpoint and without any change to it, so that a large event takes live endpoints off.

## Main definitions

* `Network`, `Proxy` — endpoints with mailboxes and with lines, and a listener for one of them.
* `Carrier.Candid` — how the liveness of endpoints bears on the answers to calls.
* `Session.Settled` — what has become of an entry.

## Main results

* `Mailboxes.candid`, `Lines.candid` — both carriers are candid.
* `Session.callEach_spec` — who goes off the roster while entries are called.
* `Session.notify_prunes` — the same for everybody on the roster.
-/
namespace StorageBus

variable {σ τ ω ρ : Type}

/-! ## What carriers answer -/

namespace Carrier

/-- What a call comes to. If it fails it was too large, which changes nothing, or the endpoint is
dead after it. -/
inductive Answers (c : Carrier σ ω) (h : Handle) (call : Call) (s : σ) :
    Except Failure Unit × σ → Prop where
  | taken (fits : call.bytes.length ≤ maxParcelSize) (t : σ) : Answers c h call s (.ok (), t)
  | failed (cause : Failure) (t : σ) (unchanged : maxParcelSize < call.bytes.length → t = s)
    (dead : call.bytes.length ≤ maxParcelSize → c.isAlive h t = false) :
    Answers c h call s (.error cause, t)

/-- A call that fits fails only at an endpoint that is dead after it, and no call bears on any other
endpoint. -/
structure Candid (c : Carrier σ ω) : Prop where
  answers : ∀ h descriptor call s, c.Answers h call s (c.transact h descriptor call s)
  others : ∀ {g h}, g ≠ h → ∀ descriptor call s,
    c.isAlive g (c.transact h descriptor call s).2 = c.isAlive g s

theorem Candid.on {c : Carrier σ ω} (candid : c.Candid) {p : Part τ σ}
    (get_set : ∀ v s, p.get (p.set v s) = v) (set_get : ∀ s, p.set (p.get s) s = s) :
    (c.on p).Candid where
  answers h descriptor call s := by
    have answers := candid.answers h descriptor call (p.get s)
    have lifted : (c.on p).transact h descriptor call s =
        ((c.transact h descriptor call (p.get s)).1,
          p.set (c.transact h descriptor call (p.get s)).2 s) := rfl
    rw [lifted]
    generalize c.transact h descriptor call (p.get s) = outcome at answers ⊢
    cases answers with
    | taken fits t => exact .taken fits _
    | failed cause t unchanged dead =>
      refine .failed cause _ (fun exceeds => ?_) fun fits => ?_
      · rw [unchanged exceeds, set_get]
      · exact (congrArg (c.isAlive h) (get_set t s)).trans (dead fits)
  others other descriptor call s := by
    simp only [Carrier.on, Part.lift, get_set]
    exact candid.others other descriptor call (p.get s)

end Carrier

theorem Mailboxes.candid : (Mailboxes.carrier ω).Candid where
  answers h descriptor call m := by
    simp only [carrier, post]
    split
    · next exceeds =>
      exact .failed _ m (fun _ => rfl) fun fits => absurd fits (Nat.not_le_of_lt exceeds)
    · next exceeds =>
      split
      · exact .taken (Nat.le_of_not_lt exceeds) _
      · next dead => exact .failed _ m (fun _ => rfl) fun _ => Bool.not_eq_true _ ▸ dead
  others other descriptor call m := by
    simp only [carrier, isAlive_eq_ends, ends_post]

/-- A frame within the limit is written, or the stream fails. -/
theorem Frame.write_of_fits {k : Sink ρ} {f : Frame} (fits : f.body.length ≤ maxParcelSize)
    (s : ρ) : ∃ t, f.write k s = (.ok (), t) ∨ ∃ e, f.write k s = (.error (.io e), t) := by
  rw [write, if_neg (Nat.not_lt_of_le fits)]
  rcases k.writeAll f.header s with ⟨_ | _, t⟩
  · exact ⟨t, .inr ⟨_, rfl⟩⟩
  · simp only
    rcases k.writeAll f.body t with ⟨_ | _, t⟩
    · exact ⟨t, .inr ⟨_, rfl⟩⟩
    · simp only
      rcases k.flush t with ⟨_ | _, t⟩
      · exact ⟨t, .inl rfl⟩
      · exact ⟨t, .inr ⟨_, rfl⟩⟩

namespace Lines

theorem isAlive_of_none {ps : Processes} {h : Handle} {ls : Lines ρ} (absent : ls.held? h = none) :
    ls.isAlive ps h = false := by
  rw [isAlive, absent, Option.any_none]

theorem isAlive_of_dead {ps : Processes} {h : Handle} {ls : Lines ρ} {line : Line ρ}
    (held : ls.held? h = some line) (dead : line.isDead = true) : ls.isAlive ps h = false := by
  rw [isAlive, held, Option.any_some, dead]
  rfl

theorem send_of_dead {k : Sink ρ} {h : Handle} {ls : Lines ρ} {line : Line ρ}
    (held : ls.held? h = some line) (dead : line.isDead = true) (c : Call) :
    ls.send k h c = (.error .deadObject, ls) := by
  have same : ls.update h (fun _ => line) = ls := by
    rw [update, Table.update_eq_self (find?_of_held? held).1 rfl]
  have wrote : line.write k (frame c) = (.error .deadObject, line) := if_pos dead
  simp only [send, held, wrote, same]

/-- A call that fits is taken by a line in order, or costs the line. -/
theorem send_of_fits {k : Sink ρ} {h : Handle} {ls : Lines ρ} {line : Line ρ}
    (held : ls.held? h = some line) (alive : ¬ line.isDead = true) {c : Call}
    (fits : c.bytes.length ≤ maxParcelSize) :
    (∃ after, ls.send k h c = (.ok (), after)) ∨
      ∃ after, ls.send k h c = (.error .deadObject, after) ∧ after.held? h = none := by
  have found := (find?_of_held? held).1
  have within : (frame c).body.length ≤ maxParcelSize := fits
  simp only [send, held, Line.write, if_neg alive]
  obtain ⟨stream, ok | ⟨e, failed⟩⟩ := Frame.write_of_fits (k := k) within line.stream
  · rw [ok]
    exact .inl ⟨_, rfl⟩
  · rw [failed]
    refine .inr ⟨_, rfl, ?_⟩
    rw [held?_of_find? (find?_update_self found _)]
    rfl

theorem candid (k : Sink ρ) (ps : Processes) : (Lines.carrier k ps ω).Candid where
  answers h descriptor call ls := by
    have sent : (Lines.carrier k ps ω).transact h descriptor call ls = ls.send k h call := rfl
    rw [sent]
    cases held : ls.held? h with
    | none =>
      rw [send_of_none held]
      exact .failed _ ls (fun _ => rfl) fun _ => isAlive_of_none held
    | some line =>
      by_cases dead : line.isDead = true
      · rw [send_of_dead held dead]
        exact .failed _ ls (fun _ => rfl) fun _ => isAlive_of_dead held dead
      · by_cases exceeds : maxParcelSize < call.bytes.length
        · rw [send_of_over held (Bool.not_eq_true _ ▸ dead) exceeds]
          exact .failed _ ls (fun _ => rfl) fun fits => absurd fits (Nat.not_le_of_lt exceeds)
        · have fits := Nat.le_of_not_lt exceeds
          rcases send_of_fits held dead fits with ⟨after, ok⟩ | ⟨after, failed, absent⟩
          · rw [ok]
            exact .taken fits after
          · rw [failed]
            exact .failed _ after (fun large => absurd large exceeds) fun _ =>
              isAlive_of_none absent
  others := by
    intro g h other descriptor call ls
    have same : (ls.send k h call).2.held? g = ls.held? g := by
      rw [held?, held?, find?_send_of_ne other]
    exact congrArg (Option.any _) same

end Lines

/-! ## Networks -/

/-- Endpoints with mailboxes, and subscribers with lines. -/
structure Network (ω ρ : Type) where
  mail : Mailboxes ω := {}
  lines : Lines ρ := {}

/-- How calls get to an endpoint. -/
inductive Route where
  | mail
  | line
deriving DecidableEq, Repr

/-- A remote listener, and the way to its endpoint. -/
structure Proxy where
  remote : Remote
  route : Route := .mail
deriving DecidableEq, Repr

namespace Network

def mailPart : Part (Network ω ρ) (Mailboxes ω) := ⟨mail, fun v n => { n with mail := v }⟩

def linesPart : Part (Network ω ρ) (Lines ρ) := ⟨lines, fun v n => { n with lines := v }⟩

def carrier (k : Sink ρ) (ps : Processes) : Route → Carrier (Network ω ρ) ω
  | .mail => (Mailboxes.carrier ω).on mailPart
  | .line => (Lines.carrier k ps ω).on linesPart

theorem candid (k : Sink ρ) (ps : Processes) (r : Route) :
    (carrier k ps r : Carrier (Network ω ρ) ω).Candid := by
  cases r with
  | mail => exact Mailboxes.candid.on (fun _ _ => rfl) (fun _ => rfl)
  | line => exact (Lines.candid k ps).on (fun _ _ => rfl) (fun _ => rfl)

/-- A call bears on no endpoint with another handle, whichever way it goes. -/
theorem isAlive_transact_of_ne (k : Sink ρ) (ps : Processes) (r q : Route) {g h : Handle}
    (other : g ≠ h) (descriptor : String) (call : Call) (n : Network ω ρ) :
    (carrier k ps q).isAlive g ((carrier k ps r).transact h descriptor call n).2 =
      (carrier k ps q).isAlive g n := by
  cases r with
  | mail =>
    cases q with
    | mail => exact (candid k ps .mail).others other descriptor call n
    | line => rfl
  | line =>
    cases q with
    | mail => rfl
    | line => exact (candid k ps .line).others other descriptor call n

end Network

namespace Proxy

/-- Whether the endpoint is alive, as its carrier has it. -/
def isAlive (k : Sink ρ) (ps : Processes) (p : Proxy) (n : Network ω ρ) : Bool :=
  (Network.carrier k ps p.route).isAlive p.remote.handle n

def send (k : Sink ρ) (ps : Processes) (p : Proxy) (e : Event) (n : Network ω ρ) :
    Except Fault Unit × Network ω ρ :=
  p.remote.send (Network.carrier k ps p.route) e n

def listener (k : Sink ρ) (ps : Processes) (p : Proxy) : Listener (Session Proxy (Network ω ρ)) :=
  fun e => modifyGet (Session.restPart.lift (p.send k ps e))

/-- What sending an event comes to. -/
inductive Sending (k : Sink ρ) (ps : Processes) (p : Proxy) (e : Event) (n : Network ω ρ) :
    Except Fault Unit × Network ω ρ → Prop where
  | taken (fits : p.remote.Fits e) (after : Network ω ρ) : Sending k ps p e n (.ok (), after)
  | failed (cause : Failure) (after : Network ω ρ) (unchanged : ¬ p.remote.Fits e → after = n)
    (dead : p.remote.Fits e → p.isAlive k ps after = false) :
    Sending k ps p e n (.error (.unavailable p.remote.handle cause), after)

theorem send_cases (k : Sink ρ) (ps : Processes) (p : Proxy) (e : Event) (n : Network ω ρ) :
    Sending k ps p e n (p.send k ps e n) := by
  have answers := (Network.candid k ps p.route).answers p.remote.handle p.remote.descriptor
    (p.remote.call e) n
  rw [send, Remote.send]
  generalize (Network.carrier k ps p.route).transact p.remote.handle p.remote.descriptor
    (p.remote.call e) n = outcome at answers ⊢
  cases answers with
  | taken fits after => exact .taken fits after
  | failed cause after unchanged dead =>
    exact .failed cause after (fun exceeds => unchanged (Nat.lt_of_not_le exceeds)) dead

theorem isAlive_send_of_ne (k : Sink ρ) (ps : Processes) {p q : Proxy}
    (other : q.remote.handle ≠ p.remote.handle) (e : Event) (n : Network ω ρ) :
    q.isAlive k ps (p.send k ps e n).2 = q.isAlive k ps n := by
  have sent : (p.send k ps e n).2 = ((Network.carrier k ps p.route).transact p.remote.handle
      p.remote.descriptor (p.remote.call e) n).2 := by
    rw [send, Remote.send]
    split
    · next eq => rw [eq]
    · next eq => rw [eq]
  rw [sent]
  exact Network.isAlive_transact_of_ne k ps p.route q.route other _ _ n

end Proxy

/-! ## Telling everybody -/

namespace Report

/-- The report with so many accepted calls more, and with failed ones after which the handles were
taken off the roster. -/
def more (accepted : Nat) (failed : List Handle) (r : Report) : Report :=
  ⟨r.delivered + accepted, r.failed ++ failed, r.pruned + failed.length⟩

variable (r : Report) (accepted : Nat) (failed : List Handle)

theorem more_accept : r.accept.more accepted failed = r.more (accepted + 1) failed := by
  simp only [more, accept, Nat.add_assoc, Nat.add_comm 1]

theorem more_fail (h : Handle) :
    (r.fail h true).more accepted failed = r.more accepted (h :: failed) := by
  simp only [more, fail, if_true, List.append_assoc, List.singleton_append, List.length_cons,
    Nat.add_assoc, Nat.add_comm 1]

end Report

namespace Session

/-- What has become of an entry that was called: if the call was too large the entry is among the
failed, and its endpoint is as alive as before; if not, it is only among them if it is dead. -/
structure Settled (k : Sink ρ) (ps : Processes) (e : Event) (before after : Network ω ρ)
    (failed : List Handle) (x : Entry Proxy) : Prop where
  refused : ¬ x.listener.remote.Fits e → x.handle ∈ failed ∧
    x.listener.isAlive k ps after = x.listener.isAlive k ps before
  lost : x.listener.remote.Fits e → x.handle ∈ failed → x.listener.isAlive k ps after = false

/-- What calling entries comes to, with the handles of those that failed. -/
structure Called (k : Sink ρ) (ps : Processes) (e : Event) (entries : List (Entry Proxy))
    (s after : Session Proxy (Network ω ρ)) (failed : List Handle) : Prop where
  among : failed.Sublist (entries.map (·.handle))
  kept : after.roster.entries = s.roster.entries.filter (·.handle ∉ failed)
  settled : ∀ x ∈ entries, Settled k ps e s.rest after.rest failed x
  others : ∀ p : Proxy, p.remote.handle ∉ entries.map (·.handle) →
    p.isAlive k ps after.rest = p.isAlive k ps s.rest

variable {k : Sink ρ} {ps : Processes} {e : Event}

/-- Calls to others before it and failures of others do not matter to an entry. -/
theorem Settled.mono {before n after : Network ω ρ} {failed failed' : List Handle} {y : Entry Proxy}
    (settled : Settled k ps e n after failed y)
    (same : y.listener.isAlive k ps n = y.listener.isAlive k ps before)
    (members : y.handle ∈ failed' ↔ y.handle ∈ failed) :
    Settled k ps e before after failed' y where
  refused exceeds := by
    obtain ⟨mem, alive⟩ := settled.refused exceeds
    exact ⟨members.mpr mem, alive.trans same⟩
  lost fits mem := settled.lost fits (members.mp mem)

section Calls

variable {x : Entry Proxy} {entries : List (Entry Proxy)} {s after : Session Proxy (Network ω ρ)}
  {n : Network ω ρ} {roster : Roster Proxy} {failed : List Handle}

/-- A call to the first of some entries bears on none of the others. -/
structure First (k : Sink ρ) (ps : Processes) (x : Entry Proxy) (entries : List (Entry Proxy))
    (before n : Network ω ρ) : Prop where
  own : ∀ y ∈ x :: entries, y.handle = y.listener.remote.handle
  unlike : x.handle ∉ entries.map (·.handle)
  elsewhere : ∀ p : Proxy, p.remote.handle ≠ x.handle → p.isAlive k ps n = p.isAlive k ps before

theorem First.ne (first : First k ps x entries s.rest n) {y : Entry Proxy} (mem : y ∈ entries) :
    y.handle ≠ x.handle := by
  intro same
  exact first.unlike (same ▸ List.mem_map_of_mem mem)

theorem First.others (first : First k ps x entries s.rest n)
    (called : Called k ps e entries { roster, rest := n } after failed) (p : Proxy)
    (unlike : p.remote.handle ∉ (x :: entries).map (·.handle)) :
    p.isAlive k ps after.rest = p.isAlive k ps s.rest := by
  rw [List.map_cons, List.mem_cons, not_or] at unlike
  exact (called.others p unlike.2).trans (first.elsewhere p unlike.1)

theorem First.settled (first : First k ps x entries s.rest n)
    (called : Called k ps e entries { roster, rest := n } after failed) {failed' : List Handle}
    (members : ∀ h ≠ x.handle, h ∈ failed' ↔ h ∈ failed) {y : Entry Proxy} (mem : y ∈ entries) :
    Settled k ps e s.rest after.rest failed' y := by
  have ne := first.ne mem
  have same : y.listener.remote.handle ≠ x.handle :=
    first.own y (List.mem_cons_of_mem x mem) ▸ ne
  exact (called.settled y mem).mono (first.elsewhere y.listener same) (members y.handle ne)

/-- After a call that was taken the others are called. -/
theorem First.taken (first : First k ps x entries s.rest n) (fits : x.listener.remote.Fits e)
    (called : Called k ps e entries { s with rest := n } after failed) :
    Called k ps e (x :: entries) s after failed where
  among := called.among.cons x.handle
  kept := called.kept
  settled := by
    intro y mem
    rcases List.mem_cons.mp mem with rfl | mem
    · refine ⟨fun exceeds => absurd fits exceeds, fun _ mem => ?_⟩
      exact absurd (called.among.subset mem) first.unlike
    · exact first.settled called (fun _ _ => Iff.rfl) mem
  others := first.others called

/-- After a call that failed the entry is off the roster, and the others are called. -/
theorem First.dropped (first : First k ps x entries s.rest n)
    (without : roster.entries = s.roster.entries.filter (·.handle ≠ x.handle))
    (settled : Settled k ps e s.rest n [x.handle] x)
    (called : Called k ps e entries { roster, rest := n } after failed) :
    Called k ps e (x :: entries) s after (x.handle :: failed) where
  among := called.among.cons_cons x.handle
  kept := by
    rw [called.kept, without, List.filter_filter]
    apply List.filter_congr
    intro y _
    grind
  settled := by
    intro y mem
    rcases List.mem_cons.mp mem with rfl | mem
    · have own := first.own y List.mem_cons_self
      have later := called.others y.listener (own ▸ first.unlike)
      refine ⟨fun exceeds => ⟨List.mem_cons_self, ?_⟩, fun fits _ => ?_⟩
      · exact later.trans (settled.refused exceeds).2
      · exact later.trans (settled.lost fits List.mem_cons_self)
    · refine first.settled called (fun h ne => ?_) mem
      rw [List.mem_cons, or_iff_right ne]
  others := first.others called

end Calls

/-- Who is unavailable goes off the roster. -/
theorem settle_unavailable {L σ : Type} {s : Session L σ} {h : Handle}
    (listed : h ∈ s.roster.handles) (g : Handle) (cause : Failure) (report : Report) :
    settle h (.error (.unavailable g cause)) report s =
      (report.fail h true, { s with roster := (s.roster.unregister h).2 }) := by
  have removed := Roster.unregister_of_mem listed
  simp only [settle, Fault.isUnavailable, Fault.cause?, Option.isSome_some, if_true, unregister,
    Part.lift, rosterPart, removed]

/-- Of the entries that are called, those that fail go off the roster. -/
theorem callEach_spec (k : Sink ρ) (ps : Processes) (e : Event) {entries : List (Entry Proxy)}
    (own : ∀ x ∈ entries, x.handle = x.listener.remote.handle)
    (distinct : (entries.map (·.handle)).Nodup) {s : Session Proxy (Network ω ρ)}
    (wf : s.roster.WellFormed) (listed : ∀ x ∈ entries, x.handle ∈ s.roster.handles)
    (report : Report) :
    ∃ failed accepted after,
      callEach (Proxy.listener k ps · e) entries report s =
        .ok (report.more accepted failed) after ∧
      accepted + failed.length = entries.length ∧ Called k ps e entries s after failed := by
  induction entries generalizing s report with
  | nil =>
    refine ⟨[], 0, s, ?_, rfl, List.nil_sublist _, by simp, by simp, fun _ _ => rfl⟩
    rw [Report.more, List.append_nil]
    rfl
  | cons x entries ih =>
    obtain ⟨unlike, distinct⟩ := List.nodup_cons.mp distinct
    have own' : ∀ y ∈ entries, y.handle = y.listener.remote.handle := fun y mem =>
      own y (List.mem_cons_of_mem x mem)
    have listed' : ∀ y ∈ entries, y.handle ∈ s.roster.handles := fun y mem =>
      listed y (List.mem_cons_of_mem x mem)
    have called : Proxy.listener k ps x.listener e s =
        .ok (x.listener.send k ps e s.rest).1
          { s with rest := (x.listener.send k ps e s.rest).2 } := rfl
    have elsewhere (p : Proxy) (ne : p.remote.handle ≠ x.handle) :
        p.isAlive k ps (x.listener.send k ps e s.rest).2 = p.isAlive k ps s.rest :=
      Proxy.isAlive_send_of_ne k ps (own x List.mem_cons_self ▸ ne) e s.rest
    have first : First k ps x entries s.rest (x.listener.send k ps e s.rest).2 :=
      ⟨own, unlike, elsewhere⟩
    have sending := x.listener.send_cases k ps e s.rest
    rw [callEach_cons called]
    generalize x.listener.send k ps e s.rest = outcome at sending first ⊢
    cases sending with
    | taken fits n =>
      obtain ⟨failed, accepted, after, ran, counts, others⟩ :=
        ih own' distinct (s := { s with rest := n }) wf listed' report.accept
      refine ⟨failed, accepted + 1, after, ?_, ?_, first.taken fits others⟩
      · rw [← Report.more_accept]
        exact ran
      · rw [List.length_cons, ← counts, Nat.add_right_comm]
    | failed cause n unchanged dead =>
      have without := Roster.entries_unregister wf x.handle
      have still : ∀ y ∈ entries, y.handle ∈ (s.roster.unregister x.handle).2.handles := by
        intro y mem
        rw [Roster.handles_unregister wf, List.mem_filter]
        exact ⟨listed' y mem, decide_eq_true (first.ne mem)⟩
      obtain ⟨failed, accepted, after, ran, counts, others⟩ :=
        ih own' distinct (s := { roster := (s.roster.unregister x.handle).2, rest := n })
          (wf.unregister x.handle) still (report.fail x.handle true)
      have settled : Settled k ps e s.rest n [x.handle] x := by
        refine ⟨fun exceeds => ⟨List.mem_singleton.mpr rfl, ?_⟩, fun fits _ => dead fits⟩
        rw [unchanged exceeds]
      have taken := settle_unavailable (s := { s with rest := n }) (listed x List.mem_cons_self)
        x.listener.remote.handle cause report
      refine ⟨x.handle :: failed, accepted, after, ?_, ?_, first.dropped without settled others⟩
      · simp only [taken]
        rw [ran, Report.more_fail]
      · rw [List.length_cons, List.length_cons, ← counts, Nat.add_assoc]

/-- Everybody on the roster is told of the event, and those and only those whose calls failed are
off it afterwards, of whom each is dead or was sent a call that is too large. -/
theorem notify_prunes (k : Sink ρ) (ps : Processes) (e : Event) {s : Session Proxy (Network ω ρ)}
    (wf : s.roster.WellFormed)
    (own : ∀ x ∈ s.roster.entries, x.handle = x.listener.remote.handle) :
    ∃ report after, notify (Proxy.listener k ps) e s = .ok report after ∧
      after.roster.entries = s.roster.entries.filter (·.handle ∉ report.failed) ∧
      report.pruned = report.failed.length ∧
      report.delivered + report.failed.length = s.roster.entries.length ∧
      ∀ x ∈ s.roster.entries, Settled k ps e s.rest after.rest report.failed x := by
  obtain ⟨failed, accepted, after, ran, counts, called⟩ :=
    callEach_spec k ps e own wf.handles_nodup wf (fun x mem => List.mem_map_of_mem mem) {}
  have report : Report.more accepted failed {} = ⟨accepted, failed, failed.length⟩ := by
    simp only [Report.more, Nat.zero_add, List.nil_append]
  rw [report] at ran
  exact ⟨_, after, ran, called.kept, rfl, counts, called.settled⟩

/-- An endpoint that takes its call, and one whose line was closed. -/
theorem notify_prunes_closed :
    let a : Entry Proxy := ⟨⟨1, none⟩, ⟨{ handle := ⟨1, none⟩ }, .mail⟩⟩
    let b : Entry Proxy := ⟨⟨2, none⟩, ⟨{ handle := ⟨2, none⟩ }, .line⟩⟩
    let s : Session Proxy (Network Unit Tape) := {
      roster := (Roster.register b.handle b.listener
        (Roster.register a.handle a.listener {}).2).2
      rest := {
        mail := Mailboxes.enroll a.handle {}
        lines := ((Lines.adopt b.handle {} {}).close b.handle).2 } }
    ∃ report after, notify (Proxy.listener Tape.sink ⟨1, []⟩) (.connectionChanged true) s =
        .ok report after ∧ report.failed = [b.handle] ∧ after.roster.entries = [a] ∧
      b.listener.isAlive Tape.sink ⟨1, []⟩ after.rest = false := by
  intro a b s
  have wf : s.roster.WellFormed := (Roster.WellFormed.empty.register _ _).register _ _
  have entries : s.roster.entries = [a, b] := rfl
  have own : ∀ x ∈ s.roster.entries, x.handle = x.listener.remote.handle := by
    simp [entries, a, b]
  have fits : b.listener.remote.Fits (.connectionChanged true) := by decide +kernel
  obtain ⟨report, after, ran, kept, -, -, settled⟩ :=
    notify_prunes Tape.sink ⟨1, []⟩ (.connectionChanged true) wf own
  have reported : (((notify (Proxy.listener Tape.sink ⟨1, []⟩) (.connectionChanged true)).attempt
      s).1.map Report.failed).toOption = some [b.handle] := by
    decide +kernel
  rw [Act.attempt, ran] at reported
  have failed : report.failed = [b.handle] := Option.some.inj reported
  refine ⟨report, after, ran, failed, ?_, ?_⟩
  · rw [kept, entries, failed]
    rfl
  · exact (settled b (by simp [entries])).lost fits (by simp [failed])

end Session

/-! ## Large events -/

theorem Text.Utf16.length_le_encode (s : String) : s.toList.length ≤ (encode s).length := by
  unfold encode
  induction s.toList with
  | nil => exact Nat.le_refl 0
  | cons c cs ih =>
    have units : 0 < (units c).length := by
      unfold Utf16.units
      split <;> simp
    rw [List.flatMap_cons, List.length_append, List.length_cons]
    omega

/-- A text that takes more than half of a parcel's size does not fit. -/
theorem Remote.not_fits_of_long (r : Remote) {text : String}
    (long : maxParcelSize ≤ 2 * text.toList.length) : ¬ r.Fits (.volumeForgotten text) := by
  intro fits
  have units := Text.Utf16.length_le_encode text
  have content := Parcel.Takes.length_textContent text
  have bytes (p : Parcel) : (p.putText text).bytes =
      align ((p.putCount (Text.Utf16.encode text).length).bytes ++
        Parcel.Takes.textContent text) := by
    simp [Parcel.putText, Parcel.putOptionalText, Parcel.Takes.textContent]
  have padded := le_roundUp ((Parcel.putCount (Text.Utf16.encode text).length
    (Parcel.putToken r.descriptor {})).bytes ++ Parcel.Takes.textContent text).length
  simp only [Fits, Event.encodeCall, Event.put, Parcel.size, bytes, length_align] at fits
  rw [List.length_append] at padded fits
  omega

namespace Session

/-- An event that is too large for everybody empties the roster, whoever is alive. -/
theorem notify_large (k : Sink ρ) (ps : Processes) {e : Event} {s : Session Proxy (Network ω ρ)}
    (wf : s.roster.WellFormed)
    (own : ∀ x ∈ s.roster.entries, x.handle = x.listener.remote.handle)
    (large : ∀ x ∈ s.roster.entries, ¬ x.listener.remote.Fits e) :
    ∃ report after, notify (Proxy.listener k ps) e s = .ok report after ∧
      report.pruned = s.roster.entries.length ∧ after.roster.entries = [] ∧
      ∀ x ∈ s.roster.entries,
        x.listener.isAlive k ps after.rest = x.listener.isAlive k ps s.rest := by
  obtain ⟨failed, accepted, after, ran, counts, called⟩ :=
    callEach_spec k ps e own wf.handles_nodup wf (fun x mem => List.mem_map_of_mem mem) {}
  have refused (x : Entry Proxy) (mem : x ∈ s.roster.entries) :=
    (called.settled x mem).refused (large x mem)
  have all : s.roster.handles ⊆ failed := by
    intro h known
    obtain ⟨x, mem, rfl⟩ := List.mem_map.mp known
    exact (refused x mem).1
  have count := wf.handles_nodup.length_le_of_subset all
  rw [Roster.handles, List.length_map] at count
  refine ⟨_, after, ran, ?_, ?_, fun x mem => (refused x mem).2⟩
  · simp only [Report.more, Nat.zero_add]
    omega
  · rw [called.kept, List.filter_eq_nil_iff]
    intro x mem
    simpa using (refused x mem).1

/-- A live endpoint that is taken off the roster by an event that is too large. -/
theorem notify_large_alive :
    let a : Proxy := { remote := { handle := ⟨1, none⟩ } }
    let s : Session Proxy (Network Unit Tape) := {
      roster := (({} : Roster Proxy).register a.remote.handle a).2
      rest := { mail := Mailboxes.enroll a.remote.handle {} } }
    let e : Event := .volumeForgotten (String.ofList (List.replicate 600000 'a'))
    ∃ report after, notify (Proxy.listener Tape.sink ⟨1, []⟩) e s = .ok report after ∧
      report.pruned = 1 ∧ after.roster.entries = [] ∧
      a.isAlive Tape.sink ⟨1, []⟩ after.rest = true := by
  intro a s e
  have wf : s.roster.WellFormed := Roster.WellFormed.empty.register _ _
  have entries : s.roster.entries = [⟨a.remote.handle, a⟩] := rfl
  have length : (String.ofList (List.replicate 600000 'a')).toList.length = 600000 := by
    rw [String.toList_ofList, List.length_replicate]
  have large : ¬ a.remote.Fits e := a.remote.not_fits_of_long (by rw [length]; decide)
  generalize e = e at large ⊢
  obtain ⟨report, after, ran, pruned, left, alive⟩ := notify_large Tape.sink ⟨1, []⟩ wf
    (e := e) (by simp [entries]) (by simpa [entries] using large)
  have still := alive ⟨a.remote.handle, a⟩ (by simp [entries])
  rw [entries] at pruned
  exact ⟨report, after, ran, pruned, left, still.trans rfl⟩

end Session

end StorageBus
