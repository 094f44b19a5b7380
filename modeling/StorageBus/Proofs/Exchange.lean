import StorageBus.Proofs.Hub
import StorageBus.Proofs.Roster
import StorageBus.Publisher

/-!
# Exchanges

A roster of remote listeners whose endpoints have mailboxes. Listeners come onto the roster and go
off it, endpoints are published and killed, and everybody on the roster is told of events. Workers
may take steps before an event is sent to any one of the listeners.

## Main definitions

* `Exchange`, with `Exchange.publish`, `Exchange.register`, `Exchange.kill`, `Exchange.notify`.
* `Exchange.Orderly` — who is on the roster is alive, and goes off it at death.

## Main results

* `Exchange.register_cases`, `Exchange.kill_cases` — what registering and killing come to.
* `Exchange.notify_eq` — everybody on the roster takes the event.
* `Hub.Serving.tellEach`, `Hub.Serving.flushed` — what an endpoint has of that.
-/
namespace StorageBus

variable {σ : Type}

/-! ## Telling several endpoints -/

namespace Hub

/-- Sends an event to an endpoint, after steps of workers. -/
def tell (between : Handle → List (Handle × Mailbox.Move)) (e : Event) (h : Handle)
    (hub : Hub σ) : Hub σ :=
  ((hub.works (between h)).send { handle := h } e).2

/-- Tells one endpoint after the other. -/
def tellEach (between : Handle → List (Handle × Mailbox.Move)) (e : Event) :
    List Handle → Hub σ → Hub σ
  | [], hub => hub
  | h :: hs, hub => tellEach between e hs (hub.tell between e h)

/-- The hub in which an endpoint was shut down. -/
def shut (h : Handle) (hub : Hub σ) : Hub σ :=
  { hub with mail := hub.mail.update h fun b => { b with isOpen := false, obituaries := [] } }

/-- The hub in which one more obituary is kept for an endpoint. -/
def link (h : Handle) (hub : Hub σ) : Hub σ :=
  { hub with mail := hub.mail.update h fun b => { b with obituaries := b.obituaries ++ [()] } }

theorem isAlive_shut (h : Handle) (hub : Hub σ) (g : Handle) :
    (hub.shut h).mail.isAlive g = true ↔ g ≠ h ∧ hub.mail.isAlive g = true := by
  rw [Mailboxes.isAlive_eq_ends, Mailboxes.isAlive_eq_ends, shut]
  by_cases same : g = h
  · subst same
    rw [Mailboxes.ends_update_self]
    cases Table.find? g hub.mail.boxes <;> simp
  · simp [Mailboxes.ends_update_of_ne same, same]

theorem isAlive_link (h : Handle) (hub : Hub σ) (g : Handle) :
    (hub.link h).mail.isAlive g = hub.mail.isAlive g :=
  Mailboxes.isAlive_update (f := fun b => { b with obituaries := b.obituaries ++ [()] })
    (fun _ => rfl) hub.mail h g

theorem ends_tell (between : Handle → List (Handle × Mailbox.Move)) (e : Event) (h : Handle)
    (hub : Hub σ) (g : Handle) : (hub.tell between e h).mail.ends g = hub.mail.ends g := by
  rw [tell, ends_send, ends_works]

theorem ends_tellEach (between : Handle → List (Handle × Mailbox.Move)) (e : Event)
    (hs : List Handle) (hub : Hub σ) (g : Handle) :
    (tellEach between e hs hub).mail.ends g = hub.mail.ends g := by
  induction hs generalizing hub with
  | nil => rfl
  | cons h hs ih => rw [tellEach, ih, ends_tell]

/-- A live endpoint takes an event whose call fits. -/
theorem send_works {h : Handle} {hub : Hub σ} (alive : hub.mail.isAlive h = true) {e : Event}
    (fits : (e.encodeCall defaultDescriptor).size ≤ maxParcelSize)
    (between : Handle → List (Handle × Mailbox.Move)) :
    (hub.works (between h)).send { handle := h } e = (.ok (), hub.tell between e h) := by
  have here : (hub.works (between h)).mail.isAlive h = true :=
    (isAlive_congr (ends_works _ hub h)).trans alive
  have fitting : ({ handle := h } : Remote).Fits e := fits
  rw [tell, Serving.send_of_fits fitting here]

theorem Unknown.tellEach {h : Handle} {hub : Hub σ} (unknown : hub.Unknown h) {e : Event}
    (fits : (e.encodeCall defaultDescriptor).size ≤ maxParcelSize) {hs : List Handle}
    (alive : ∀ g ∈ hs, hub.mail.isAlive g = true)
    (between : Handle → List (Handle × Mailbox.Move)) :
    (hub.tellEach between e hs).Unknown h := by
  induction hs generalizing hub with
  | nil => exact unknown
  | cons g hs ih =>
    have here := (isAlive_congr (ends_works (between g) hub g)).trans (alive g List.mem_cons_self)
    have fitting : ({ handle := g } : Remote).Fits e := fits
    rw [Hub.tellEach]
    refine ih ?_ fun k mem => ?_
    · rw [tell, Serving.send_of_fits fitting here]
      exact (unknown.works (between g)).update g _
    · exact (isAlive_congr (ends_tell _ _ _ hub k)).trans (alive k (List.mem_cons_of_mem _ mem))

namespace Serving

variable {r : Receiver σ} {remote : Remote} {posted : List Job} {told heard : List Event}
  {hub : Hub σ}

theorem tell (serving : hub.Serving r remote posted told heard) {e : Event}
    (standard : remote.descriptor = defaultDescriptor)
    (fits : (e.encodeCall defaultDescriptor).size ≤ maxParcelSize) {h : Handle}
    (alive : hub.mail.isAlive h = true) (between : Handle → List (Handle × Mailbox.Move)) :
    ∃ posted more, (hub.tell between e h).Serving r remote posted
      (told ++ if remote.handle = h then [e] else []) (heard ++ more) := by
  obtain ⟨more, served⟩ := serving.works (between h)
  have here : (hub.works (between h)).mail.isAlive h = true :=
    (isAlive_congr (ends_works _ hub h)).trans alive
  have fitting : ({ handle := h } : Remote).Fits e := fits
  by_cases this : remote.handle = h
  · obtain ⟨handle, descriptor⟩ := remote
    obtain rfl : descriptor = defaultDescriptor := standard
    obtain rfl : handle = h := this
    rw [if_pos rfl]
    exact ⟨_, more, served.send fitting here⟩
  · rw [if_neg this, List.append_nil, Hub.tell, send_of_fits fitting here]
    exact ⟨posted, more, served.update_other this _⟩

theorem tellEach (serving : hub.Serving r remote posted told heard) {e : Event}
    (standard : remote.descriptor = defaultDescriptor)
    (fits : (e.encodeCall defaultDescriptor).size ≤ maxParcelSize) {hs : List Handle}
    (distinct : hs.Nodup) (alive : ∀ h ∈ hs, hub.mail.isAlive h = true)
    (between : Handle → List (Handle × Mailbox.Move)) :
    ∃ posted more, (hub.tellEach between e hs).Serving r remote posted
      (told ++ if remote.handle ∈ hs then [e] else []) (heard ++ more) := by
  induction hs generalizing hub posted told heard with
  | nil => exact ⟨posted, [], by simpa [Hub.tellEach] using serving⟩
  | cons h hs ih =>
    rw [List.nodup_cons] at distinct
    obtain ⟨elsewhere, distinct⟩ := distinct
    obtain ⟨_, first, next⟩ := serving.tell standard fits (alive h List.mem_cons_self) between
    have alive' : ∀ g ∈ hs, (hub.tell between e h).mail.isAlive g = true := by
      intro g mem
      exact (isAlive_congr (ends_tell _ _ _ hub g)).trans (alive g (List.mem_cons_of_mem _ mem))
    obtain ⟨posted', more, final⟩ := ih next distinct alive'
    refine ⟨posted', first ++ more, ?_⟩
    rw [← List.append_assoc]
    by_cases this : remote.handle = h
    · subst this
      simpa [elsewhere, Hub.tellEach] using final
    · simpa [this, Hub.tellEach] using final

/-- Once a marker with a new ticket was passed at a live endpoint, it has heard everything. -/
theorem flushed (serving : hub.Serving r remote posted told heard)
    (alive : hub.mail.isAlive remote.handle = true) {ticket : Nat}
    (unused : ∀ b, Table.find? remote.handle hub.mail.boxes = some b → b.IsNew ticket)
    (steps : List (Handle × Mailbox.Move))
    (passed : ((hub.mark remote.handle ticket).2.works steps).HasPassed remote.handle ticket) :
    ∃ posted more, ((hub.mark remote.handle ticket).2.works steps).Serving r remote posted told
      (heard ++ more) ∧ told <+: heard ++ more := by
  obtain ⟨b, done, found, kept⟩ := serving.box
  have unmarked : .marker ticket ∉ posted := kept.not_mem_of_isNew (unused b found)
  have marked := serving.mark alive ticket
  have stillAlive := (isAlive_congr (ends_mark remote.handle ticket hub _)).trans alive
  obtain ⟨more, final⟩ := marked.works steps
  have all := final.heard_of_passed unmarked passed
    ((isAlive_congr (ends_works steps _ _)).trans stillAlive) serving.calls List.prefix_rfl
  exact ⟨_, more, final, all⟩

theorem shut (serving : hub.Serving r remote posted told heard) {h : Handle}
    (alive : hub.mail.isAlive h = true) :
    (hub.shut h).Serving r remote posted told heard := by
  by_cases this : remote.handle = h
  · subst this
    obtain ⟨b, done, found, kept⟩ := serving.box
    have isOpen : b.isOpen = true := (Mailboxes.isAlive_of_find? found).symm.trans alive
    exact ⟨⟨_, done, Mailboxes.find?_update_self found _, kept.close isOpen []⟩, serving.receiver,
      serving.notes, serving.calls, serving.heard_prefix, serving.fits⟩
  · exact serving.update_other this _

theorem link (serving : hub.Serving r remote posted told heard) (h : Handle) :
    (hub.link h).Serving r remote posted told heard := by
  by_cases this : remote.handle = h
  · subst this
    have linked := serving.changeBox [] []
      (f := fun b => { b with obituaries := b.obituaries ++ [()] })
      (fun keeps => by simpa using keeps.withObituaries _) rfl (by simp)
    rw [List.append_nil, List.append_nil] at linked
    exact linked
  · exact serving.update_other this _

end Serving

end Hub

/-! ## Exchanges -/

/-- A roster of remote listeners, and the mailboxes of their endpoints. -/
abbrev Exchange (σ : Type) := Session Remote (Hub σ)

namespace Exchange

/-- Publishes a new endpoint with a receiver. -/
def publish (h : Handle) (r : Receiver σ) (x : Exchange σ) : Exchange σ :=
  Session.restPart.modify (Hub.enroll h r) x

def register (h : Handle) : Exchange σ → Bool × Exchange σ :=
  Session.registerRemote ((Mailboxes.carrier Unit).on Hub.mailPart) () h { handle := h }

/-- The obituary of a listener takes it off the roster. -/
def bury (h : Handle) (_ : Unit) : Act (Exchange σ) Unit :=
  discard (modifyGet (Session.unregister h))

def kill (h : Handle) : Exchange σ → Except Panic Bool × Exchange σ :=
  (Mailboxes.kill (Session.restPart.comp Hub.mailPart) bury h).attempt

/-- A remote listener that is sent an event after some steps of workers. -/
def listener (between : Handle → List (Handle × Mailbox.Move)) (r : Remote) :
    Listener (Exchange σ) := fun e =>
  modifyGet (Session.restPart.lift fun hub => (hub.works (between r.handle)).send r e)

def notify (between : Handle → List (Handle × Mailbox.Move)) (e : Event) :
    Exchange σ → Except Panic Report × Exchange σ :=
  (Session.notify (listener between) e).attempt

/-- Marks the end of a mailbox, and has workers take steps. Says whether the endpoint was alive. -/
def flush (h : Handle) (ticket : Nat) (steps : List (Handle × Mailbox.Move)) (x : Exchange σ) :
    Bool × Exchange σ :=
  Session.restPart.lift (fun hub =>
    let (alive, hub) := hub.mark h ticket
    (alive, hub.works steps)) x

/-- The roster lists proxies under their handles, and all of their endpoints are alive and have
somebody to take the proxy off the roster. -/
structure Orderly (x : Exchange σ) : Prop where
  roster : x.roster.WellFormed
  proxies : ∀ e ∈ x.roster.entries, e.listener = { handle := e.handle }
  linked : ∀ h ∈ x.roster.handles,
    ∃ obituaries, x.rest.mail.ends h = some (true, obituaries) ∧ obituaries ≠ []

namespace Orderly

variable {x : Exchange σ}

theorem alive (orderly : x.Orderly) {h : Handle} (known : h ∈ x.roster.handles) :
    x.rest.mail.isAlive h = true := by
  obtain ⟨obituaries, ends, -⟩ := orderly.linked h known
  rw [Mailboxes.isAlive_eq_ends, ends]
  rfl

/-- A change that neither opens nor closes endpoints. -/
theorem withRest (orderly : x.Orderly) {hub : Hub σ}
    (same : ∀ h ∈ x.roster.handles, hub.mail.ends h = x.rest.mail.ends h) :
    Orderly { x with rest := hub } where
  roster := orderly.roster
  proxies := orderly.proxies
  linked h known := by
    obtain ⟨obituaries, ends, kept⟩ := orderly.linked h known
    exact ⟨obituaries, (same h known).trans ends, kept⟩

/-- A roster from which an entry was taken. -/
theorem without (orderly : x.Orderly) {h : Handle} {roster : Roster Remote}
    (wf : roster.WellFormed)
    (entries : roster.entries = x.roster.entries.filter (·.handle ≠ h)) :
    Orderly { x with roster } ∧ roster.handles = x.roster.handles.filter (· ≠ h) := by
  have handles : roster.handles = x.roster.handles.filter (· ≠ h) := by
    rw [Roster.handles, entries, Roster.handles, List.filter_map]
    rfl
  refine ⟨⟨wf, fun e mem => ?_, fun g mem => ?_⟩, handles⟩
  · have mem : e ∈ roster.entries := mem
    rw [entries] at mem
    exact orderly.proxies e (List.mem_filter.mp mem).1
  · have mem : g ∈ roster.handles := mem
    rw [handles] at mem
    exact orderly.linked g (List.mem_filter.mp mem).1

/-- A roster to which a live endpoint has come, with an obituary for it. -/
theorem listed (orderly : x.Orderly) {h : Handle} {roster : Roster Remote} (wf : roster.WellFormed)
    (new : h ∉ x.roster.handles) (alive : x.rest.mail.isAlive h = true)
    (entries : roster.entries = x.roster.entries ++ [⟨h, { handle := h }⟩]) :
    Orderly ⟨roster, x.rest.link h⟩ ∧ roster.handles = x.roster.handles ++ [h] := by
  have handles : roster.handles = x.roster.handles ++ [h] := by
    rw [Roster.handles, entries, List.map_append, ← Roster.handles]
    rfl
  refine ⟨⟨wf, fun e mem => ?_, fun g mem => ?_⟩, handles⟩
  · have mem : e ∈ x.roster.entries ++ [⟨h, { handle := h }⟩] := entries ▸ mem
    rcases List.mem_append.mp mem with mem | mem
    · exact orderly.proxies e mem
    · rw [List.mem_singleton.mp mem]
  · have listed : g ∈ x.roster.handles ++ [h] := handles ▸ mem
    rcases List.mem_append.mp listed with old | last
    · obtain ⟨obituaries, ends, asked⟩ := orderly.linked g old
      have other : g ≠ h := by
        rintro rfl
        exact new old
      exact ⟨obituaries, (Mailboxes.ends_update_of_ne other _ _).trans ends, asked⟩
    · obtain rfl := List.mem_singleton.mp last
      obtain ⟨b, found, isOpen⟩ := Mailboxes.isAlive_iff.mp alive
      refine ⟨b.obituaries ++ [()], ?_, by simp⟩
      rw [Hub.link, Mailboxes.ends_update_self, found, Option.map_some, isOpen]

end Orderly

/-! ### Registering -/

/-- What registering an endpoint comes to. -/
inductive Registering (x : Exchange σ) (h : Handle) : Bool × Exchange σ → Prop
  | refused {roster : Roster Remote} (wf : roster.WellFormed)
    (unfit : ¬ (h ∉ x.roster.handles ∧ x.rest.mail.isAlive h = true))
    (entries : roster.entries = x.roster.entries) : Registering x h (false, { x with roster })
  | accepted {roster : Roster Remote} (wf : roster.WellFormed) (new : h ∉ x.roster.handles)
    (alive : x.rest.mail.isAlive h = true)
    (entries : roster.entries = x.roster.entries ++ [⟨h, { handle := h }⟩]) :
    Registering x h (true, ⟨roster, x.rest.link h⟩)

theorem register_cases {x : Exchange σ} (wf : x.roster.WellFormed) (h : Handle) :
    Registering x h (x.register h) := by
  obtain ⟨roster, hub⟩ := x
  by_cases known : h ∈ roster.handles
  · have eq : register h ⟨roster, hub⟩ = (false, ⟨roster, hub⟩) := by
      simp only [register, Session.registerRemote, Session.register, Part.lift, Session.rosterPart,
        Roster.register_of_mem known]
    rw [eq]
    exact .refused wf (fun fit => fit.1 known) rfl
  · have one := Roster.register_of_not_mem known ({ handle := h } : Remote)
    have entries := Roster.entries_register wf known ({ handle := h } : Remote)
    have wf' := wf.register h ({ handle := h } : Remote)
    generalize result : roster.register h ({ handle := h } : Remote) = result' at one entries wf'
    obtain ⟨answer, roster'⟩ := result'
    subst one
    by_cases alive : hub.mail.isAlive h = true
    · have eq : register h ⟨roster, hub⟩ = (true, ⟨roster', hub.link h⟩) := by
        simp [register, Session.registerRemote, Session.register, Part.lift, Session.rosterPart,
          result, Session.restPart, Carrier.on, Mailboxes.carrier, Hub.mailPart, Mailboxes.link,
          alive, Hub.link]
      rw [eq]
      exact .accepted wf' known alive entries
    · have eq : register h ⟨roster, hub⟩ = (false, ⟨(roster'.unregister h).2, hub⟩) := by
        simp [register, Session.registerRemote, Session.register, Part.lift, Session.rosterPart,
          result, Session.restPart, Carrier.on, Mailboxes.carrier, Hub.mailPart, Mailboxes.link,
          alive, Failure.isDead, Session.unregister]
      rw [eq]
      refine .refused (wf'.unregister h) (fun fit => alive fit.2) ?_
      rw [Roster.entries_unregister wf', entries, List.filter_append,
        Roster.filter_entries_of_not_mem known]
      simp

/-! ### Killing -/

/-- What killing an endpoint comes to. -/
inductive Killing (x : Exchange σ) (h : Handle) : Except Panic Bool × Exchange σ → Prop
  | dead (dead : x.rest.mail.isAlive h = false) : Killing x h (.ok false, x)
  | alive {roster : Roster Remote} (alive : x.rest.mail.isAlive h = true)
    (wf : roster.WellFormed)
    (entries : roster.entries = x.roster.entries.filter (·.handle ≠ h)) :
    Killing x h (.ok true, ⟨roster, x.rest.shut h⟩)

/-- However many obituaries there are, the entry is taken out. -/
theorem forM_bury {h : Handle} {x : Exchange σ} (wf : x.roster.WellFormed)
    (obituaries : List Unit) :
    ∃ roster, obituaries.forM (bury h) x = .ok () { x with roster } ∧ roster.WellFormed ∧
      roster.entries = if obituaries = [] then x.roster.entries
        else x.roster.entries.filter (·.handle ≠ h) := by
  induction obituaries generalizing x with
  | nil => exact ⟨x.roster, rfl, wf, rfl⟩
  | cons one obituaries ih =>
    obtain ⟨roster, eq, wf', entries⟩ := ih (x := { x with roster := (x.roster.unregister h).2 })
      (wf.unregister h)
    refine ⟨roster, eq, wf', ?_⟩
    rw [entries, Roster.entries_unregister wf]
    split <;> simp

theorem kill_cases {x : Exchange σ} (orderly : x.Orderly) (h : Handle) :
    Killing x h (x.kill h) := by
  cases found : x.rest.mail.openBox? h with
  | none =>
    have closed : (Session.restPart.comp Hub.mailPart).lift (Mailboxes.close h) x = (none, x) := by
      simp [Part.lift, Part.comp, Session.restPart, Hub.mailPart, Mailboxes.close, found]
    have eq : x.kill h = (.ok false, x) := by
      rw [kill, Act.attempt, Mailboxes.kill_of_none closed]
    rw [eq]
    exact .dead (by simp [Mailboxes.isAlive, found])
  | some b =>
    have alive : x.rest.mail.isAlive h = true := by simp [Mailboxes.isAlive, found]
    have closed : (Session.restPart.comp Hub.mailPart).lift (Mailboxes.close h) x =
        (some b.obituaries, { x with rest := x.rest.shut h }) := by
      simp [Part.lift, Part.comp, Session.restPart, Hub.mailPart, Mailboxes.close, found, Hub.shut]
    obtain ⟨roster, buried, wf, entries⟩ :=
      forM_bury (x := { x with rest := x.rest.shut h }) orderly.roster b.obituaries (h := h)
    have eq : x.kill h = (.ok true, ⟨roster, x.rest.shut h⟩) := by
      rw [kill, Act.attempt, Mailboxes.kill_of_some closed buried]
    rw [eq]
    refine .alive alive wf ?_
    rw [entries]
    split
    · next unasked =>
      -- Nobody asked for anything at this end, so the endpoint is not on the roster.
      symm
      apply Roster.filter_entries_of_not_mem
      intro known
      obtain ⟨obituaries, ends, asked⟩ := orderly.linked h known
      have same : Table.find? h x.rest.mail.boxes = some b :=
        (Option.filter_eq_some_iff.mp found).1
      rw [Mailboxes.ends, same] at ends
      simp only [Option.map_some, Option.some.injEq, Prod.mk.injEq] at ends
      exact asked (ends.2.symm.trans unasked)
    · rfl

/-! ### Flushing -/

theorem flush_of_isAlive {x : Exchange σ} {h : Handle} (alive : x.rest.mail.isAlive h = true)
    (ticket : Nat) (steps : List (Handle × Mailbox.Move)) :
    x.flush h ticket steps = (true, { x with rest := (x.rest.mark h ticket).2.works steps }) := by
  simp only [flush, Part.lift, Session.restPart, Hub.mark_of_isAlive alive]

/-- A flush of an endpoint that is not alive waits for nothing. -/
theorem flush_of_dead {x : Exchange σ} {h : Handle} (dead : ¬ x.rest.mail.isAlive h = true)
    (ticket : Nat) (steps : List (Handle × Mailbox.Move)) :
    x.flush h ticket steps = (false, { x with rest := x.rest.works steps }) := by
  simp only [flush, Part.lift, Session.restPart, Hub.mark_of_dead dead]

/-! ### Telling everybody -/

theorem callEach_listener (between : Handle → List (Handle × Mailbox.Move)) {e : Event}
    (fits : (e.encodeCall defaultDescriptor).size ≤ maxParcelSize) {entries : List (Entry Remote)}
    {x : Exchange σ} (proxies : ∀ l ∈ entries, l.listener = { handle := l.handle })
    (alive : ∀ l ∈ entries, x.rest.mail.isAlive l.handle = true) (report : Report) :
    Session.callEach (listener between · e) entries report x =
      .ok { report with delivered := report.delivered + entries.length }
        { x with rest := x.rest.tellEach between e (entries.map (·.handle)) } := by
  induction entries generalizing x report with
  | nil => rfl
  | cons l entries ih =>
    have sent := Hub.send_works (alive l List.mem_cons_self) fits between
    have called : listener between l.listener e x =
        .ok (.ok ()) { x with rest := x.rest.tell between e l.handle } := by
      rw [proxies l List.mem_cons_self]
      rw [listener, Act.modifyGet_apply]
      simp only [Part.lift, Session.restPart, sent]
    have step : Session.callEach (listener between · e) (l :: entries) report x =
        Session.callEach (listener between · e) entries report.accept
          { x with rest := x.rest.tell between e l.handle } := by
      rw [Session.callEach, Act.bind_apply called]
      rfl
    have later : ∀ k ∈ entries, (x.rest.tell between e l.handle).mail.isAlive k.handle = true := by
      intro k mem
      exact (Hub.isAlive_congr (Hub.ends_tell _ _ _ _ _)).trans
        (alive k (List.mem_cons_of_mem _ mem))
    rw [step, ih (fun k mem => proxies k (List.mem_cons_of_mem _ mem)) later, List.map_cons,
      Hub.tellEach, List.length_cons]
    simp only [Report.accept]
    congr 2
    omega

/-- Everybody on the roster takes the event, and nobody goes off it. -/
theorem notify_eq {x : Exchange σ} (orderly : x.Orderly)
    (between : Handle → List (Handle × Mailbox.Move)) {e : Event}
    (fits : (e.encodeCall defaultDescriptor).size ≤ maxParcelSize) :
    x.notify between e = (.ok { delivered := x.roster.handles.length },
      { x with rest := x.rest.tellEach between e x.roster.handles }) := by
  have all := callEach_listener between fits orderly.proxies
    (fun l mem => orderly.alive (List.mem_map_of_mem mem)) {}
  have report : Session.notify (listener between) e x =
      Session.callEach (listener between · e) x.roster.entries {} x := rfl
  rw [notify, Act.attempt, report, all]
  simp [Roster.handles]

end Exchange

end StorageBus
