import StorageBus.Proofs.Exchange

/-!
# Whole runs of an exchange

Endpoints are published, registered, unregistered, killed and flushed, everybody on the roster is
told of events, and in between the workers take whatever steps they take. Each listener hears the
events of the notifications made while its handle was on the roster, once and in order: all of them
up to the last flush that came through, and of the later ones those that came first.

## Main definitions

* `Exchange.Deed`, `Exchange.Run` — what was done, with the answers, and runs.
* `Exchange.listed`, `Exchange.living`, `Exchange.told` — who is on the roster after some deeds, who
  is alive, and what an endpoint was told.
* `Exchange.Sound` — the invariant of runs; `Exchange.Account` — what can be said after a run.

## Main results

* `Exchange.Run.sound` — every deed keeps the invariant.
* `Exchange.Run.fans_out` — every listener hears what it should.
-/
namespace StorageBus.Exchange

variable {σ : Type}

/-! ## Deeds -/

/-- What was done on an exchange, and the answer. -/
inductive Deed where
  | published (h : Handle)
  | registered (h : Handle) (accepted : Bool)
  | unregistered (h : Handle) (known : Bool)
  | killed (h : Handle) (alive : Except Panic Bool)
  /-- If the endpoint was alive its worker has passed the marker, else there was none. -/
  | flushed (h : Handle) (alive : Bool)
  /-- The handles are those on the roster at that moment. -/
  | notified (hs : List Handle) (e : Event) (report : Except Panic Report)
deriving DecidableEq

/-- The roster after a deed. -/
def Deed.roll (hs : List Handle) : Deed → List Handle
  | .registered h true => hs ++ [h]
  | .unregistered h _ | .killed h _ => hs.filter (· ≠ h)
  | .registered _ false | .published _ | .flushed _ _ | .notified _ _ _ => hs

/-- The live endpoints after a deed. -/
def Deed.live (hs : List Handle) : Deed → List Handle
  | .published h => hs ++ [h]
  | .killed h _ => hs.filter (· ≠ h)
  | .registered _ _ | .unregistered _ _ | .flushed _ _ | .notified _ _ _ => hs

/-- The event that an endpoint is told. -/
def Deed.told? (h : Handle) : Deed → Option Event
  | .notified hs e _ => if h ∈ hs then some e else none
  | .published _ | .registered _ _ | .unregistered _ _ | .killed _ _ | .flushed _ _ => none

/-- Who is on the roster after the deeds, the earliest registration first. -/
def listed (done : List Deed) : List Handle := done.foldl Deed.roll []

/-- The endpoints that were published and not killed since. -/
def living (done : List Deed) : List Handle := done.foldl Deed.live []

/-- The events that an endpoint was told while it was on the roster. -/
def told (h : Handle) (done : List Deed) : List Event := done.filterMap (Deed.told? h)

theorem listed_append (done : List Deed) (d : Deed) :
    listed (done ++ [d]) = d.roll (listed done) := by
  rw [listed, List.foldl_append]
  rfl

theorem living_append (done : List Deed) (d : Deed) :
    living (done ++ [d]) = d.live (living done) := by
  rw [living, List.foldl_append]
  rfl

theorem told_append (h : Handle) (before after : List Deed) :
    told h (before ++ after) = told h before ++ told h after :=
  List.filterMap_append

theorem filter_ne_of_not_mem {h : Handle} {hs : List Handle} (absent : h ∉ hs) :
    hs.filter (· ≠ h) = hs := by
  apply List.filter_eq_self.mpr
  intro g mem
  rw [decide_eq_true_iff]
  rintro rfl
  exact absent mem

/-- Whether the answer to a deed is the one that the deeds before it call for. A notification
reaches everybody who is on the roster when it is made, and takes nobody off it. -/
def Deed.Right (before : List Deed) : Deed → Prop
  | .published h => h ∉ living before
  | .registered h accepted => accepted = true ↔ h ∉ listed before ∧ h ∈ living before
  | .unregistered h known => known = true ↔ h ∈ listed before
  | .killed h alive => alive = .ok (decide (h ∈ living before))
  | .flushed h alive => alive = true ↔ h ∈ living before
  | .notified hs _ report =>
    hs = listed before ∧ report = .ok { delivered := hs.length, failed := [], pruned := 0 }

/-- A deed within some deeds and one more is the last, or it is within those. -/
theorem split_cases {done before after : List Deed} {d deed : Deed}
    (eq : done ++ [d] = before ++ deed :: after) :
    before = done ∧ deed = d ∨ ∃ rest, done = before ++ deed :: rest := by
  rcases after.eq_nil_or_concat with rfl | ⟨rest, last, rfl⟩
  · obtain ⟨rfl, same⟩ := List.append_inj' eq rfl
    exact .inl ⟨rfl, (List.singleton_inj.mp same).symm⟩
  · rw [List.concat_eq_append, ← List.cons_append, ← List.append_assoc] at eq
    exact .inr ⟨rest, (List.append_inj' eq rfl).1⟩

/-! ## Runs -/

/-- Deeds on an exchange that was empty at first, the earliest first. Workers may take steps at any
time. A published endpoint is new, and the calls for events fit into parcels. -/
inductive Run (v : σ) : List Deed → Exchange σ → Prop
  | start : Run v [] { rest := { rest := v } }
  | publish {done : List Deed} {x : Exchange σ} (run : Run v done x) {h : Handle}
    (new : Table.find? h x.rest.mail.boxes = none) {r : Receiver σ}
    (standard : r.descriptor = defaultDescriptor) :
    Run v (done ++ [.published h]) (x.publish h r)
  | register {done : List Deed} {x : Exchange σ} (run : Run v done x) (h : Handle) :
    Run v (done ++ [.registered h (x.register h).1]) (x.register h).2
  | unregister {done : List Deed} {x : Exchange σ} (run : Run v done x) (h : Handle) :
    Run v (done ++ [.unregistered h (x.unregister h).1]) (x.unregister h).2
  | kill {done : List Deed} {x : Exchange σ} (run : Run v done x) (h : Handle) :
    Run v (done ++ [.killed h (x.kill h).1]) (x.kill h).2
  | flush {done : List Deed} {x : Exchange σ} (run : Run v done x) (h : Handle) {ticket : Nat}
    (unused : ∀ b, Table.find? h x.rest.mail.boxes = some b → b.IsNew ticket)
    (steps : List (Handle × Mailbox.Move))
    (passed : (x.flush h ticket steps).1 = true →
      (x.flush h ticket steps).2.rest.HasPassed h ticket) :
    Run v (done ++ [.flushed h (x.flush h ticket steps).1]) (x.flush h ticket steps).2
  | notify {done : List Deed} {x : Exchange σ} (run : Run v done x) {e : Event}
    (fits : (e.encodeCall defaultDescriptor).size ≤ maxParcelSize)
    (between : Handle → List (Handle × Mailbox.Move)) :
    Run v (done ++ [.notified x.roster.handles e (x.notify between e).1]) (x.notify between e).2
  | work {done : List Deed} {x : Exchange σ} (run : Run v done x) (h : Handle)
    (move : Mailbox.Move) : Run v done (Session.restPart.modify (Hub.work h move) x)

/-! ## One endpoint -/

/-- How it stands with an endpoint: it was never there and was told nothing, or its listener has
heard some of what it was told, and everything that it was told before a flush. -/
inductive Standing (done : List Deed) (hub : Hub σ) (h : Handle) : Prop
  | absent (unknown : hub.Unknown h) (untold : told h done = [])
    (unflushed : .flushed h true ∉ done)
  | present {r : Receiver σ} {posted : List Job} {heard : List Event}
    (standard : r.descriptor = defaultDescriptor)
    (serving : hub.Serving r { handle := h } posted (told h done) heard)
    (flushed : ∀ before after, done = before ++ .flushed h true :: after →
      told h before <+: heard)

namespace Standing

variable {done : List Deed} {hub after : Hub σ} {h : Handle}

/-- A deed that tells the endpoint nothing, or maybe an event. -/
theorem next (standing : Standing done hub h) {d : Deed}
    (absent : hub.Unknown h → after.Unknown h ∧ d.told? h = none ∧ d ≠ .flushed h true)
    (present : ∀ {r posted heard},
      hub.Serving r { handle := h } posted (told h done) heard →
      ∃ posted more, after.Serving r { handle := h } posted (told h done ++ (d.told? h).toList)
        (heard ++ more) ∧ (d = .flushed h true → told h done <+: heard ++ more)) :
    Standing (done ++ [d]) after h := by
  have one : told h (done ++ [d]) = told h done ++ (d.told? h).toList := by
    rw [told_append]
    cases event : d.told? h <;> simp [told, event]
  cases standing with
  | absent unknown untold unflushed =>
    obtain ⟨unknown', none, unflushed'⟩ := absent unknown
    refine .absent unknown' ?_ (by simpa [Ne.symm unflushed'] using unflushed)
    rw [one, none, untold]
    rfl
  | present standard serving flushed =>
    obtain ⟨posted, more, serving', all⟩ := present serving
    refine .present standard (one ▸ serving') fun before rest eq => ?_
    rcases split_cases eq with ⟨rfl, last⟩ | ⟨rest, within⟩
    · exact all last.symm
    · exact (flushed before rest within).trans (List.prefix_append _ _)

/-- A deed that tells the endpoint nothing and is no flush of it. -/
theorem other (standing : Standing done hub h) {d : Deed} (untold : d.told? h = none)
    (unflushed : d ≠ .flushed h true) (absent : hub.Unknown h → after.Unknown h)
    (present : ∀ {r posted told heard}, hub.Serving r { handle := h } posted told heard →
      ∃ posted more, after.Serving r { handle := h } posted told (heard ++ more)) :
    Standing (done ++ [d]) after h := by
  refine standing.next (fun unknown => ⟨absent unknown, untold, unflushed⟩) fun serving => ?_
  obtain ⟨posted, more, serving'⟩ := present serving
  refine ⟨posted, more, ?_, fun flushed => absurd flushed unflushed⟩
  rw [untold, Option.toList_none, List.append_nil]
  exact serving'

/-- A deed from which the endpoint hears nothing. -/
theorem still (standing : Standing done hub h) {d : Deed} (untold : d.told? h = none)
    (unflushed : d ≠ .flushed h true) (absent : hub.Unknown h → after.Unknown h)
    (present : ∀ {r posted told heard}, hub.Serving r { handle := h } posted told heard →
      after.Serving r { handle := h } posted told heard) :
    Standing (done ++ [d]) after h :=
  standing.other untold unflushed absent fun serving =>
    ⟨_, [], by rw [List.append_nil]; exact present serving⟩

/-- Steps of workers go unrecorded. -/
theorem work (standing : Standing done hub h) (g : Handle) (v : Mailbox.Move) :
    Standing done (hub.work g v) h := by
  cases standing with
  | absent unknown untold unflushed => exact .absent (unknown.work g v) untold unflushed
  | present standard serving flushed =>
    obtain ⟨more, serving'⟩ := serving.works [(g, v)]
    refine .present standard serving' fun before after eq => ?_
    exact (flushed before after eq).trans (List.prefix_append _ _)

end Standing

/-! ## The whole exchange -/

/-- What holds after every run. -/
structure Sound (done : List Deed) (x : Exchange σ) : Prop where
  orderly : x.Orderly
  handles : x.roster.handles = listed done
  alive : ∀ h, x.rest.mail.isAlive h = true ↔ h ∈ living done
  standing : ∀ h, Standing done x.rest h
  answers : ∀ before d after, done = before ++ d :: after → d.Right before

namespace Sound

variable {done : List Deed} {x : Exchange σ}

theorem answers_append (sound : Sound done x) {d : Deed} (right : d.Right done) :
    ∀ before e after, done ++ [d] = before ++ e :: after → e.Right before := by
  intro before e after eq
  rcases split_cases eq with ⟨rfl, rfl⟩ | ⟨rest, within⟩
  · exact right
  · exact sound.answers before e rest within

/-- A deed by which nobody comes or goes. -/
theorem unmoved (sound : Sound done x) {d : Deed} {hub : Hub σ}
    (ends : ∀ g, hub.mail.ends g = x.rest.mail.ends g) (roll : ∀ hs, d.roll hs = hs)
    (live : ∀ hs, d.live hs = hs) (right : d.Right done)
    (standing : ∀ g, Standing (done ++ [d]) hub g) :
    Sound (done ++ [d]) { x with rest := hub } where
  orderly := sound.orderly.withRest fun g _ => ends g
  handles := by
    rw [listed_append, roll]
    exact sound.handles
  alive g := by
    rw [living_append, live, ← sound.alive, Hub.isAlive_congr (ends g)]
  standing := standing
  answers := sound.answers_append right

theorem start (v : σ) : Sound [] ({ rest := { rest := v } } : Exchange σ) where
  orderly := ⟨.empty, by simp [Roster.entries], by simp [Roster.handles, Roster.entries]⟩
  handles := rfl
  alive h := by simp [living, Mailboxes.isAlive_eq_ends, Mailboxes.ends]
  standing h := .absent ⟨rfl, rfl, rfl⟩ rfl (by simp)
  answers := by simp

theorem publish (sound : Sound done x) {h : Handle}
    (new : Table.find? h x.rest.mail.boxes = none) {r : Receiver σ}
    (standard : r.descriptor = defaultDescriptor) :
    Sound (done ++ [.published h]) (x.publish h r) := by
  have ends (g : Handle) : (x.publish h r).rest.mail.ends g =
      if g = h then some (true, []) else x.rest.mail.ends g := Hub.ends_enroll new r g
  have unknown : x.rest.mail.ends h = none := by rw [Mailboxes.ends, new, Option.map_none]
  have dead : ¬ x.rest.mail.isAlive h = true := by simp [Mailboxes.isAlive_eq_ends, unknown]
  refine ⟨?_, ?_, fun g => ?_, fun g => ?_, sound.answers_append ?_⟩
  · refine sound.orderly.withRest fun g known => (ends g).trans (if_neg ?_)
    rintro rfl
    exact dead (sound.orderly.alive known)
  · rw [listed_append]
    exact sound.handles
  · rw [living_append, Deed.live, List.mem_append, List.mem_singleton, ← sound.alive,
      Mailboxes.isAlive_eq_ends, ends, Mailboxes.isAlive_eq_ends]
    split
    · next same => simp [same]
    · next other => simp [other]
  · by_cases same : g = h
    · subst same
      cases sound.standing g with
      | absent unknown untold unflushed =>
        have none : told g (done ++ [.published g]) = [] := by
          simpa [told, Deed.told?] using untold
        have serving : (x.rest.enroll g r).Serving r { handle := g } []
            (told g (done ++ [.published g])) [] := by
          rw [none]
          exact .enroll unknown.box unknown.receiver unknown.notes r defaultDescriptor
        refine .present standard serving fun before after eq => ?_
        have mem : .flushed g true ∈ done ++ [.published g] := by simp [eq]
        simp [unflushed] at mem
      | present _ serving =>
        obtain ⟨b, _, found, -⟩ := serving.box
        cases new.symm.trans found
    · exact (sound.standing g).still rfl (by simp) (fun unknown => unknown.enroll same r)
        (fun serving => serving.enroll_other same r)
  · rw [Deed.Right, ← sound.alive]
    exact dead

theorem register (sound : Sound done x) (h : Handle) :
    Sound (done ++ [.registered h (x.register h).1]) (x.register h).2 := by
  have registering := register_cases sound.orderly.roster h
  generalize x.register h = result at registering
  cases registering with
  | @refused roster wf unfit entries =>
    have same : roster.handles = x.roster.handles := by rw [Roster.handles, entries, Roster.handles]
    refine ⟨⟨wf, ?_, ?_⟩, ?_, fun g => ?_, fun g => ?_, sound.answers_append ?_⟩
    · exact entries ▸ sound.orderly.proxies
    · exact same ▸ sound.orderly.linked
    · rw [listed_append]
      exact same.trans sound.handles
    · rw [living_append]
      exact sound.alive g
    · exact (sound.standing g).still rfl (by simp) id id
    · rw [Deed.Right, ← sound.handles, ← sound.alive]
      exact iff_of_false (by simp) unfit
  | @accepted roster wf new alive entries =>
    obtain ⟨orderly, handles⟩ := sound.orderly.listed wf new alive entries
    refine ⟨orderly, ?_, fun g => ?_, fun g => ?_, sound.answers_append ?_⟩
    · rw [listed_append, Deed.roll, ← sound.handles]
      exact handles
    · rw [living_append, Hub.isAlive_link]
      exact sound.alive g
    · exact (sound.standing g).still rfl (by simp) (fun unknown => unknown.update h _)
        (fun serving => serving.link h)
    · rw [Deed.Right, ← sound.handles, ← sound.alive]
      exact iff_of_true rfl ⟨new, alive⟩

theorem unregister (sound : Sound done x) (h : Handle) :
    Sound (done ++ [.unregistered h (x.unregister h).1]) (x.unregister h).2 := by
  obtain ⟨orderly, handles⟩ := sound.orderly.without (sound.orderly.roster.unregister h)
    (Roster.entries_unregister sound.orderly.roster h)
  refine ⟨orderly, ?_, fun g => ?_, fun g => ?_, sound.answers_append ?_⟩
  · rw [listed_append, Deed.roll, ← sound.handles]
    exact handles
  · rw [living_append]
    exact sound.alive g
  · exact (sound.standing g).still rfl (by simp) id id
  · rw [Deed.Right, ← sound.handles]
    exact Roster.unregister_iff

theorem kill (sound : Sound done x) (h : Handle) :
    Sound (done ++ [.killed h (x.kill h).1]) (x.kill h).2 := by
  have killing := kill_cases sound.orderly h
  generalize x.kill h = result at killing
  cases killing with
  | dead dead =>
    have absent : h ∉ living done := by
      rw [← sound.alive, dead]
      exact Bool.false_ne_true
    have unlisted : h ∉ listed done := by
      rw [← sound.handles]
      intro mem
      exact absent ((sound.alive h).mp (sound.orderly.alive mem))
    refine ⟨sound.orderly, ?_, fun g => ?_, fun g => ?_, sound.answers_append ?_⟩
    · rw [listed_append, Deed.roll, filter_ne_of_not_mem unlisted]
      exact sound.handles
    · rw [living_append, Deed.live, filter_ne_of_not_mem absent]
      exact sound.alive g
    · exact (sound.standing g).still rfl (by simp) id id
    · rw [Deed.Right, decide_eq_false absent]
  | @alive roster alive wf entries =>
    obtain ⟨orderly, handles⟩ := sound.orderly.without wf entries
    refine ⟨?_, ?_, fun g => ?_, fun g => ?_, sound.answers_append ?_⟩
    · refine orderly.withRest fun g mem => ?_
      have mem : g ∈ roster.handles := mem
      rw [handles] at mem
      exact Mailboxes.ends_update_of_ne (by simpa using (List.mem_filter.mp mem).2) _ _
    · rw [listed_append, Deed.roll, ← sound.handles]
      exact handles
    · rw [living_append, Deed.live, List.mem_filter, ← sound.alive, Hub.isAlive_shut, and_comm,
        decide_eq_true_iff]
    · exact (sound.standing g).still rfl (by simp) (fun unknown => unknown.update h _)
        (fun serving => serving.shut alive)
    · rw [Deed.Right, decide_eq_true ((sound.alive h).mp alive)]

theorem flush (sound : Sound done x) {h : Handle} {ticket : Nat}
    (unused : ∀ b, Table.find? h x.rest.mail.boxes = some b → b.IsNew ticket)
    {steps : List (Handle × Mailbox.Move)}
    (passed : (x.flush h ticket steps).1 = true →
      (x.flush h ticket steps).2.rest.HasPassed h ticket) :
    Sound (done ++ [.flushed h (x.flush h ticket steps).1]) (x.flush h ticket steps).2 := by
  by_cases alive : x.rest.mail.isAlive h = true
  · have ends (g : Handle) : ((x.rest.mark h ticket).2.works steps).mail.ends g =
        x.rest.mail.ends g := (Hub.ends_works steps _ g).trans (Hub.ends_mark h ticket x.rest g)
    rw [flush_of_isAlive alive] at passed ⊢
    refine sound.unmoved ends (fun _ => rfl) (fun _ => rfl) ?_ fun g => ?_
    · rw [Deed.Right, ← sound.alive]
      exact iff_of_true rfl alive
    · by_cases same : g = h
      · subst same
        refine (sound.standing g).next (fun unknown => ?_) fun serving => ?_
        · simp [Mailboxes.isAlive_eq_ends, Mailboxes.ends, unknown.box] at alive
        · obtain ⟨posted, more, serving', all⟩ := serving.flushed alive unused steps (passed rfl)
          refine ⟨posted, more, ?_, fun _ => all⟩
          rw [Deed.told?, Option.toList_none, List.append_nil]
          exact serving'
      · exact (sound.standing g).other rfl (by simp [Ne.symm same])
          (fun unknown => (unknown.mark h ticket).works steps)
          (fun serving => ⟨_, (serving.mark_other same ticket).works steps⟩)
  · rw [flush_of_dead alive]
    refine sound.unmoved (Hub.ends_works steps x.rest) (fun _ => rfl) (fun _ => rfl) ?_ fun g => ?_
    · rw [Deed.Right, ← sound.alive]
      exact iff_of_false (by simp) alive
    · exact (sound.standing g).other rfl (by simp) (fun unknown => unknown.works steps)
        (fun serving => ⟨_, serving.works steps⟩)

theorem notify (sound : Sound done x) {e : Event}
    (fits : (e.encodeCall defaultDescriptor).size ≤ maxParcelSize)
    (between : Handle → List (Handle × Mailbox.Move)) :
    Sound (done ++ [.notified x.roster.handles e (x.notify between e).1])
      (x.notify between e).2 := by
  have alive : ∀ h ∈ x.roster.handles, x.rest.mail.isAlive h = true := fun h => sound.orderly.alive
  rw [notify_eq sound.orderly between fits]
  refine sound.unmoved (Hub.ends_tellEach between e _ x.rest) (fun _ => rfl) (fun _ => rfl)
    ⟨sound.handles, rfl⟩ fun g => (sound.standing g).next (fun unknown => ?_) fun serving => ?_
  · refine ⟨unknown.tellEach fits alive between, if_neg fun known => ?_, by simp⟩
    obtain ⟨obituaries, ends, -⟩ := sound.orderly.linked g known
    simp [Mailboxes.ends, unknown.box] at ends
  · obtain ⟨posted, more, serving'⟩ :=
      serving.tellEach rfl fits sound.orderly.roster.handles_nodup alive between
    refine ⟨posted, more, ?_, by simp⟩
    rw [Deed.told?]
    split <;> simp_all

theorem work (sound : Sound done x) (h : Handle) (v : Mailbox.Move) :
    Sound done (Session.restPart.modify (Hub.work h v) x) where
  orderly := sound.orderly.withRest fun g _ => Hub.ends_works [(h, v)] x.rest g
  handles := sound.handles
  alive g := by
    rw [← sound.alive]
    exact iff_of_eq (congrArg (· = true) (Hub.isAlive_congr (Hub.ends_works [(h, v)] x.rest g)))
  standing g := (sound.standing g).work h v
  answers := sound.answers

end Sound

namespace Run

theorem sound {v : σ} {done : List Deed} {x : Exchange σ} (run : Run v done x) : Sound done x := by
  induction run with
  | start => exact .start v
  | publish _ new standard ih => exact ih.publish new standard
  | register _ h ih => exact ih.register h
  | unregister _ h ih => exact ih.unregister h
  | kill _ h ih => exact ih.kill h
  | flush _ h unused steps passed ih => exact ih.flush unused passed
  | notify _ fits between ih => exact ih.notify fits between
  | work _ h v ih => exact ih.work h v

end Run

/-! ## After a run -/

/-- What can be said of an exchange after a run. -/
structure Account (done : List Deed) (x : Exchange σ) : Prop where
  handles : x.roster.handles = listed done
  alive : ∀ h, x.rest.mail.isAlive h = true ↔ h ∈ living done
  /-- Every deed had the answer that it should have had at that moment. -/
  answers : ∀ before d after, done = before ++ d :: after → d.Right before
  /-- What a listener heard are the first of the events that it was told. -/
  heard : ∀ h, x.rest.heardBy h <+: told h done
  /-- Everything told before a flush that came through was heard, also if the endpoint was killed
  later on. -/
  flushed : ∀ h before after, done = before ++ .flushed h true :: after →
    told h before <+: x.rest.heardBy h
  /-- After a flush that came through, and until more is told, everything was heard. -/
  complete : ∀ h before after, done = before ++ .flushed h true :: after → told h after = [] →
    x.rest.heardBy h = told h done
  /-- A flush of a live endpoint comes through, whatever steps the workers take first. -/
  flushes : ∀ h, x.rest.mail.isAlive h = true → ∃ ticket,
    (∀ b, Table.find? h x.rest.mail.boxes = some b → b.IsNew ticket) ∧
      ∀ steps, ∃ more, (x.flush h ticket (steps ++ more)).2.rest.HasPassed h ticket

namespace Standing

variable {done : List Deed} {hub : Hub σ} {h : Handle}

theorem hears_first (standing : Standing done hub h) : hub.heardBy h <+: told h done := by
  cases standing with
  | absent unknown =>
    rw [unknown.notes]
    exact List.nil_prefix
  | present standard serving =>
    have notes := serving.notes
    rw [if_pos standard.symm] at notes
    rw [notes]
    exact serving.heard_prefix

theorem hears_told (standing : Standing done hub h) {before after : List Deed}
    (eq : done = before ++ .flushed h true :: after) : told h before <+: hub.heardBy h := by
  cases standing with
  | absent _ _ unflushed => simp [eq] at unflushed
  | present standard serving flushed =>
    have notes := serving.notes
    rw [if_pos standard.symm] at notes
    rw [notes]
    exact flushed before after eq

theorem exists_passed (standing : Standing done hub h) (alive : hub.mail.isAlive h = true) :
    ∃ ticket, (∀ b, Table.find? h hub.mail.boxes = some b → b.IsNew ticket) ∧
      ∀ steps, ∃ more, ((hub.mark h ticket).2.works (steps ++ more)).HasPassed h ticket := by
  cases standing with
  | absent unknown => simp [Mailboxes.isAlive_eq_ends, Mailboxes.ends, unknown.box] at alive
  | present standard serving =>
    obtain ⟨b, -, found, -⟩ := serving.box
    obtain ⟨ticket, isNew⟩ := b.exists_isNew
    refine ⟨ticket, fun b' found' => ?_, fun steps => ?_⟩
    · cases found.symm.trans found'
      exact isNew
    · obtain ⟨_, marked⟩ := (serving.mark alive ticket).works steps
      obtain ⟨vs, passed⟩ := marked.exists_passed (List.mem_append_right _ List.mem_cons_self)
      refine ⟨vs.map (h, ·), ?_⟩
      rw [Hub.works, List.foldl_append]
      exact passed

end Standing

theorem Run.fans_out {v : σ} {done : List Deed} {x : Exchange σ} (run : Run v done x) :
    Account done x where
  handles := run.sound.handles
  alive := run.sound.alive
  answers := run.sound.answers
  heard h := (run.sound.standing h).hears_first
  flushed h before after := (run.sound.standing h).hears_told
  complete h before after eq silent := by
    have all := (run.sound.standing h).hears_told eq
    have same : told h done = told h before := by
      rw [eq, ← List.singleton_append, told_append, told_append, silent]
      simp [told, Deed.told?]
    exact (run.sound.standing h).hears_first.eq_of_length_le (same ▸ all.length_le)
  flushes h alive := (run.sound.standing h).exists_passed alive

/-- A listener that hears of an event before a flush, and is killed then. -/
theorem Run.fans_out_killed : ∃ done x, Run () done x ∧ Account done x ∧ listed done = [] ∧
    x.rest.heardBy ⟨1, none⟩ = [.volumeForgotten "a"] := by
  let h : Handle := ⟨1, none⟩
  let e : Event := .volumeForgotten "a"
  have fits : (e.encodeCall defaultDescriptor).size ≤ maxParcelSize := by decide +kernel
  have empty : Run () [] { rest := { rest := () } } := .start
  have published := empty.publish (h := h) rfl (r := { listener := Listener.idle Unit }) rfl
  have entered : Run () [.published h, .registered h true] _ := published.register h
  have told := entered.notify fits fun _ => []
  have handles : Roster.handles _ = [h] := entered.sound.handles
  rw [notify_eq entered.sound.orderly _ fits, handles] at told
  have alive := told.sound.orderly.alive (h := h) (by rw [told.sound.handles]; decide)
  obtain ⟨ticket, unused, through⟩ := told.fans_out.flushes h alive
  obtain ⟨steps, passed⟩ := through []
  rw [List.nil_append] at passed
  have flushed := told.flush h unused steps fun _ => passed
  rw [flush_of_isAlive alive] at flushed
  have run := flushed.kill h
  exact ⟨_, _, run, run.fans_out, rfl, run.fans_out.complete h [_, _, _] [_] rfl rfl⟩

end StorageBus.Exchange
