import StorageBus.Endpoint.Mailboxes

/-!
# What a mailbox keeps

The jobs posted to a mailbox are those its worker is done with, the one it holds and those that
wait, in this order. The worker gives out the calls it is done with as long as the box is open, and
maybe one more that it had cleared before.

## Main definitions

* `Mailbox.Keeps` — this invariant, with the jobs posted, those done and the calls given out.
* `Mailbox.Move`, `Mailbox.move` — the steps of a worker as data.

## Main results

* `Mailbox.Keeps.push`, `Mailbox.Keeps.move`, `Mailbox.Keeps.close` — everything that happens to a
  mailbox keeps it.
* `Mailbox.Keeps.given_of_passed` — what was posted before a marker that was passed is given out.
* `Mailbox.exists_idle` — a worker that goes on comes to an end.
-/
namespace StorageBus

/-- The call that a job is, if it is one. -/
def Job.call? : Job → Option Call
  | .call c => some c
  | .marker _ => none

/-- The ticket of a marker. -/
def Job.ticket? : Job → Option Nat
  | .call _ => none
  | .marker ticket => some ticket

/-- The job that a hand holds, if it holds one. -/
def Hand.jobs : Hand → List Job
  | .empty => []
  | .taken job => [job]
  | .cleared c => [.call c]

namespace Mailbox

variable {ω : Type}

/-- The calls among jobs. -/
def calls (jobs : List Job) : List Call := jobs.filterMap Job.call?

@[simp] theorem calls_append (js ks : List Job) : calls (js ++ ks) = calls js ++ calls ks :=
  List.filterMap_append

/-- The jobs posted are those done, the one in hand and those that wait. The calls given out are the
first of those done, and all of them unless the box was closed. -/
structure Keeps (posted done : List Job) (given : List Call) (b : Mailbox ω) : Prop where
  order : posted = done ++ b.hand.jobs ++ b.queue
  passed : ∀ ticket, ticket ∈ b.passed ↔ .marker ticket ∈ done
  given_prefix : given <+: calls done
  given_eq : b.isOpen = true ∨ (∃ c, b.hand = .cleared c) → given = calls done

/-- Whether no marker in the mailbox, and none that was passed, has the ticket. -/
def IsNew (ticket : Nat) (b : Mailbox ω) : Prop :=
  .marker ticket ∉ b.hand.jobs ++ b.queue ∧ ticket ∉ b.passed

theorem Keeps.not_mem_of_isNew {posted done : List Job} {given : List Call} {b : Mailbox ω}
    (h : b.Keeps posted done given) {ticket : Nat} (isNew : b.IsNew ticket) :
    .marker ticket ∉ posted := by
  rw [h.order, List.append_assoc, List.mem_append, ← h.passed]
  rintro (passed | waits)
  · exact isNew.2 passed
  · exact isNew.1 waits

theorem exists_isNew (b : Mailbox ω) : ∃ ticket, b.IsNew ticket := by
  let tickets := b.passed ++ (b.hand.jobs ++ b.queue).filterMap Job.ticket?
  have bound {ticket : Nat} (mem : ticket ∈ tickets) : ticket ≤ tickets.max?.getD 0 :=
    List.le_max?_getD_of_mem mem
  refine ⟨tickets.max?.getD 0 + 1, fun waits => ?_, fun passed => ?_⟩
  · have := bound (List.mem_append_right _ (List.mem_filterMap.mpr ⟨_, waits, rfl⟩))
    omega
  · have := bound (List.mem_append_left _ passed)
    omega

/-! ## The worker -/

/-- The steps of a worker. -/
inductive Move where
  | take
  | check
  | release
deriving DecidableEq, Repr

/-- A step of the worker, with the call it gives out. -/
def move : Move → Mailbox ω → Option Call × Mailbox ω
  | .take, b => (none, b.take)
  | .check, b => (none, b.check)
  | .release, b => b.release

/-- The call that the worker is about to give out. -/
def cleared? (b : Mailbox ω) : Option Call :=
  match b.hand with
  | .cleared c => some c
  | .empty | .taken _ => none

/-- Steps one after the other, with the calls given out. -/
def moves : List Move → Mailbox ω → List Call × Mailbox ω
  | [], b => ([], b)
  | v :: vs, b =>
    let (c, b) := b.move v
    let (cs, b) := moves vs b
    (c.toList ++ cs, b)

theorem isOpen_move (v : Move) (b : Mailbox ω) : (b.move v).2.isOpen = b.isOpen := by
  cases v with
  | take =>
    simp only [move, take]
    split <;> rfl
  | check =>
    simp only [move, check]
    split <;> rfl
  | release =>
    simp only [move, release]
    split <;> rfl

theorem obituaries_move (v : Move) (b : Mailbox ω) : (b.move v).2.obituaries = b.obituaries := by
  cases v with
  | take =>
    simp only [move, take]
    split <;> rfl
  | check =>
    simp only [move, check]
    split <;> rfl
  | release =>
    simp only [move, release]
    split <;> rfl

/-- Once the box is closed no more calls are cleared. -/
theorem cleared?_move {b : Mailbox ω} (closed : b.isOpen = false) (v : Move) :
    (b.move v).1.toList ++ (b.move v).2.cleared?.toList = b.cleared?.toList := by
  cases v with
  | take =>
    simp only [move, take]
    split <;> simp_all [cleared?]
  | check =>
    simp only [move, check]
    split <;> simp_all [cleared?]
  | release =>
    simp only [move, release]
    split <;> simp_all [cleared?]

namespace Keeps

variable {posted done : List Job} {given : List Call} {b : Mailbox ω}

theorem fresh : Keeps [] [] [] ({} : Mailbox ω) where
  order := rfl
  passed := by simp
  given_prefix := List.nil_prefix
  given_eq _ := rfl

theorem take (h : b.Keeps posted done given) : b.take.Keeps posted done given := by
  unfold Mailbox.take
  split
  · next job queue hand waiting =>
    refine ⟨?_, h.passed, h.given_prefix, ?_⟩
    · rw [h.order, hand, waiting]
      simp [Hand.jobs]
    · rintro (isOpen | ⟨c, ⟨⟩⟩)
      exact h.given_eq (.inl isOpen)
  · exact h

theorem check (h : b.Keeps posted done given) :
    ∃ more, b.check.Keeps posted (done ++ more) given := by
  unfold Mailbox.check
  split
  · next c hand =>
    cases isOpen : b.isOpen with
    | true =>
      refine ⟨[], ?_, ?_, ?_, ?_⟩
      · rw [h.order, hand]
        simp [Hand.jobs]
      · simpa using h.passed
      · simpa using h.given_prefix
      · simpa using h.given_eq (.inl isOpen)
    | false =>
      refine ⟨[.call c], ?_, ?_, ?_, ?_⟩
      · rw [h.order, hand]
        simp [Hand.jobs]
      · simpa using h.passed
      · rw [calls_append]
        exact h.given_prefix.trans (List.prefix_append _ _)
      · simp
  · next ticket hand =>
    have same : calls (done ++ [.marker ticket]) = calls done := by
      simp [calls, Job.call?]
    refine ⟨[.marker ticket], ?_, ?_, ?_, ?_⟩
    · rw [h.order, hand]
      simp [Hand.jobs]
    · intro t
      simp [h.passed t, or_comm]
    · rw [same]
      exact h.given_prefix
    · rintro (isOpen | ⟨c, ⟨⟩⟩)
      rw [same]
      exact h.given_eq (.inl isOpen)
  · exact ⟨[], by simpa using h⟩
  · exact ⟨[], by simpa using h⟩

theorem release (h : b.Keeps posted done given) :
    ∃ more, b.release.2.Keeps posted (done ++ more) (given ++ b.release.1.toList) := by
  unfold Mailbox.release
  split
  · next c hand =>
    have all : given = calls done := h.given_eq (.inr ⟨c, hand⟩)
    have now : given ++ [c] = calls (done ++ [.call c]) := by
      rw [calls_append, all]
      rfl
    refine ⟨[.call c], ?_, ?_, ?_, ?_⟩
    · rw [h.order, hand]
      simp [Hand.jobs]
    · simpa using h.passed
    · exact now ▸ List.prefix_rfl
    · exact fun _ => now
  · exact ⟨[], by simpa using h⟩
  · exact ⟨[], by simpa using h⟩

theorem move (h : b.Keeps posted done given) (v : Move) :
    ∃ more, (b.move v).2.Keeps posted (done ++ more) (given ++ (b.move v).1.toList) := by
  cases v with
  | take => exact ⟨[], by simpa [Mailbox.move] using h.take⟩
  | check =>
    obtain ⟨more, h⟩ := h.check
    exact ⟨more, by simpa [Mailbox.move] using h⟩
  | release => exact h.release

/-! ## Posting and closing -/

theorem push (h : b.Keeps posted done given) (job : Job) :
    (b.push job).Keeps (posted ++ [job]) done given where
  order := by
    rw [h.order]
    simp [Mailbox.push]
  passed := h.passed
  given_prefix := h.given_prefix
  given_eq := h.given_eq

/-- What is kept for the end of an endpoint is nothing to its jobs. -/
theorem withObituaries (h : b.Keeps posted done given) (obituaries : List ω) :
    Keeps posted done given { b with obituaries } :=
  ⟨h.order, h.passed, h.given_prefix, h.given_eq⟩

theorem close (h : b.Keeps posted done given) (isOpen : b.isOpen = true) (obituaries : List ω) :
    Keeps posted done given { b with isOpen := false, obituaries } :=
  ⟨h.order, h.passed, h.given_prefix, fun _ => h.given_eq (.inl isOpen)⟩

/-! ## What was given out -/

theorem given_prefix_posted (h : b.Keeps posted done given) : given <+: calls posted := by
  rw [h.order, calls_append, calls_append, List.append_assoc]
  exact h.given_prefix.trans (List.prefix_append _ _)

/-- Before a marker that was passed there is nothing that was not given out, if the box is open. -/
theorem given_of_passed {ticket : Nat} {before after : List Job}
    (h : b.Keeps (before ++ .marker ticket :: after) done given)
    (unused : .marker ticket ∉ before) (passed : ticket ∈ b.passed) (isOpen : b.isOpen = true) :
    calls before <+: given := by
  have mem : .marker ticket ∈ done := (h.passed ticket).mp passed
  have doneFirst : done <+: before ++ .marker ticket :: after := by
    rw [h.order, List.append_assoc]
    exact List.prefix_append _ _
  have beforeFirst : before <+: before ++ .marker ticket :: after := List.prefix_append _ _
  rw [h.given_eq (.inl isOpen)]
  rcases Nat.le_total before.length done.length with le | le
  · obtain ⟨more, rfl⟩ := List.prefix_of_prefix_length_le beforeFirst doneFirst le
    rw [calls_append]
    exact List.prefix_append _ _
  · have sub := List.prefix_of_prefix_length_le doneFirst beforeFirst le
    exact absurd (sub.subset mem) unused

end Keeps

/-! ## A worker that goes on -/

/-- Nothing in hand and nothing waiting. -/
def Idle (b : Mailbox ω) : Prop := b.hand = .empty ∧ b.queue = []

theorem Keeps.done_of_idle {posted done : List Job} {given : List Call} {b : Mailbox ω}
    (h : b.Keeps posted done given) (idle : b.Idle) : posted = done := by
  rw [h.order, idle.1, idle.2]
  simp [Hand.jobs]

theorem moves_append (vs us : List Move) (b : Mailbox ω) :
    (moves (vs ++ us) b).2 = (moves us (moves vs b).2).2 := by
  induction vs generalizing b with
  | nil => rfl
  | cons v vs ih => exact ih _

theorem hand_of_finished (b : Mailbox ω) :
    (moves [.check, .release] b).2.hand = .empty ∧
      (moves [.check, .release] b).2.queue = b.queue := by
  obtain ⟨isOpen, queue, hand, passed, obituaries⟩ := b
  cases hand with
  | empty => simp [moves, move, check, release]
  | taken job => cases job <;> cases isOpen <;> simp [moves, move, check, release]
  | cleared c => simp [moves, move, check, release]

theorem exists_idle (b : Mailbox ω) : ∃ vs, (moves vs b).2.Idle := by
  have waiting (n : Nat) : ∀ b : Mailbox ω, b.hand = .empty → b.queue.length = n →
      ∃ vs, (moves vs b).2.Idle := by
    induction n with
    | zero => exact fun b hand queue => ⟨[], hand, List.length_eq_zero_iff.mp queue⟩
    | succ n ih =>
      intro b hand length
      obtain ⟨job, queue, waiting⟩ := List.exists_cons_of_length_eq_add_one length
      obtain ⟨hand', queue'⟩ := hand_of_finished b.take
      have rest : b.take.queue = queue := by simp [take, hand, waiting]
      have shorter : queue.length = n := by
        rw [waiting, List.length_cons] at length
        omega
      obtain ⟨vs, idle⟩ := ih _ hand' (by rw [queue', rest, shorter])
      refine ⟨[.take, .check, .release] ++ vs, ?_⟩
      rw [moves_append]
      exact idle
  obtain ⟨hand, queue⟩ := hand_of_finished b
  obtain ⟨vs, idle⟩ := waiting b.queue.length _ hand (by rw [queue])
  refine ⟨[.check, .release] ++ vs, ?_⟩
  rw [moves_append]
  exact idle

end Mailbox

/-! ## Many mailboxes -/

namespace Mailboxes

variable {ω : Type}

theorem find?_update (m : Mailboxes ω) (h g : Handle) (f : Mailbox ω → Mailbox ω) :
    Table.find? g (m.update h f).boxes =
      if g = h then (Table.find? h m.boxes).map f else Table.find? g m.boxes := by
  split
  · next same =>
    subst same
    exact Table.find?_update_self _ _ _
  · next other => exact Table.find?_update_of_ne other _ _

theorem find?_update_self {m : Mailboxes ω} {h : Handle} {b : Mailbox ω}
    (found : Table.find? h m.boxes = some b) (f : Mailbox ω → Mailbox ω) :
    Table.find? h (m.update h f).boxes = some (f b) := by
  rw [find?_update, if_pos rfl, found, Option.map_some]

theorem isAlive_iff {m : Mailboxes ω} {h : Handle} :
    m.isAlive h = true ↔ ∃ b, Table.find? h m.boxes = some b ∧ b.isOpen = true := by
  simp only [isAlive, openBox?, Option.isSome_iff_exists, Option.filter_eq_some_iff]

theorem isAlive_of_find? {m : Mailboxes ω} {h : Handle} {b : Mailbox ω}
    (found : Table.find? h m.boxes = some b) : m.isAlive h = b.isOpen := by
  rw [isAlive, openBox?, found, Option.filter_some]
  cases b.isOpen <;> rfl

/-! ### Who is alive -/

/-- Whether an endpoint is alive and what is kept for its end, if there is such an endpoint. -/
def ends (m : Mailboxes ω) (h : Handle) : Option (Bool × List ω) :=
  (Table.find? h m.boxes).map fun b => (b.isOpen, b.obituaries)

theorem isAlive_eq_ends (m : Mailboxes ω) (h : Handle) : m.isAlive h = (m.ends h).any (·.1) := by
  cases found : Table.find? h m.boxes with
  | none => simp [isAlive, openBox?, ends, found]
  | some b => simp [isAlive_of_find? found, ends, found]

theorem isAlive_iff_ends {m : Mailboxes ω} {h : Handle} :
    m.isAlive h = true ↔ ∃ obituaries, m.ends h = some (true, obituaries) := by
  rw [isAlive_eq_ends, Option.any_eq_true]
  constructor
  · rintro ⟨⟨isOpen, obituaries⟩, ends, rfl⟩
    exact ⟨obituaries, ends⟩
  · rintro ⟨obituaries, ends⟩
    exact ⟨_, ends, rfl⟩

theorem ends_update_self (m : Mailboxes ω) (h : Handle) (f : Mailbox ω → Mailbox ω) :
    (m.update h f).ends h =
      (Table.find? h m.boxes).map fun b => ((f b).isOpen, (f b).obituaries) := by
  rw [ends, find?_update, if_pos rfl, Option.map_map]
  rfl

theorem ends_update_of_ne {g h : Handle} (other : g ≠ h) (m : Mailboxes ω)
    (f : Mailbox ω → Mailbox ω) : (m.update h f).ends g = m.ends g := by
  rw [ends, find?_update, if_neg other, ends]

/-- A change that neither closes a mailbox nor asks for anything at its end. -/
theorem ends_update {f : Mailbox ω → Mailbox ω}
    (same : ∀ b, (f b).isOpen = b.isOpen ∧ (f b).obituaries = b.obituaries) (m : Mailboxes ω)
    (h g : Handle) : (m.update h f).ends g = m.ends g := by
  by_cases this : g = h
  · subst this
    rw [ends_update_self, ends]
    simp only [same]
  · exact ends_update_of_ne this m f

/-- A change that does not close a mailbox. -/
theorem isAlive_update {f : Mailbox ω → Mailbox ω} (same : ∀ b, (f b).isOpen = b.isOpen)
    (m : Mailboxes ω) (h g : Handle) : (m.update h f).isAlive g = m.isAlive g := by
  rw [isAlive_eq_ends, isAlive_eq_ends]
  by_cases this : g = h
  · subst this
    rw [ends_update_self, ends]
    cases Table.find? g m.boxes <;> simp [same]
  · rw [ends_update_of_ne this]

theorem ends_post (h : Handle) (c : Call) (m : Mailboxes ω) (g : Handle) :
    (m.post h c).2.ends g = m.ends g := by
  simp only [post]
  split
  · rfl
  · split
    · exact ends_update (f := (·.push _)) (fun _ => ⟨rfl, rfl⟩) m h g
    · rfl

theorem ends_mark (h : Handle) (ticket : Nat) (m : Mailboxes ω) (g : Handle) :
    (m.mark h ticket).2.ends g = m.ends g := by
  rw [mark]
  split
  · exact ends_update (f := (·.push _)) (fun _ => ⟨rfl, rfl⟩) m h g
  · rfl

theorem ends_enroll {m : Mailboxes ω} {h : Handle} (newcomer : Table.find? h m.boxes = none)
    (g : Handle) : (m.enroll h).ends g = if g = h then some (true, []) else m.ends g := by
  rw [enroll, ends, Table.find?_add]
  by_cases same : g = h
  · rw [same, newcomer, if_pos rfl, if_pos rfl]
    rfl
  · rw [if_neg (Ne.symm same), if_neg same, Option.or_none]
    rfl

/-! ### The worker of one mailbox -/

/-- A step of the worker of one mailbox. -/
def move (h : Handle) (v : Mailbox.Move) (m : Mailboxes ω) : Option Call × Mailboxes ω :=
  match Table.find? h m.boxes with
  | none => (none, m)
  | some b =>
    let (c, b) := b.move v
    (c, m.update h fun _ => b)

theorem find?_move {m : Mailboxes ω} {h : Handle} {b : Mailbox ω}
    (found : Table.find? h m.boxes = some b) (v : Mailbox.Move) (g : Handle) :
    (m.move h v).1 = (b.move v).1 ∧ Table.find? g (m.move h v).2.boxes =
      if g = h then some (b.move v).2 else Table.find? g m.boxes := by
  simp only [move, found, find?_update, Option.map_some, true_and]

theorem ends_move (h : Handle) (v : Mailbox.Move) (m : Mailboxes ω) (g : Handle) :
    (m.move h v).2.ends g = m.ends g := by
  cases found : Table.find? h m.boxes with
  | none => rw [move, found]
  | some b =>
    have moved := (m.find?_move found v g).2
    by_cases same : g = h
    · subst same
      rw [if_pos rfl] at moved
      rw [ends, moved, ends, found, Option.map_some, Option.map_some, Mailbox.isOpen_move,
        Mailbox.obituaries_move]
    · rw [if_neg same] at moved
      rw [ends, moved, ends]

/-! ### Killing -/

section Killing

variable {τ : Type} {p : Part τ (Mailboxes ω)} {run : Handle → ω → Act τ Unit} {h : Handle}

theorem kill_of_none {s t : τ} (closed : p.lift (close h) s = (none, t)) :
    kill p run h s = .ok false t := by
  rw [kill, Act.bind_apply (Act.modifyGet_apply _ s)]
  simp only [closed]
  rfl

theorem kill_of_some {s t u : τ} {obituaries : List ω}
    (closed : p.lift (close h) s = (some obituaries, t))
    (buried : obituaries.forM (run h) t = .ok () u) : kill p run h s = .ok true u := by
  rw [kill, Act.bind_apply (Act.modifyGet_apply _ s)]
  simp only [closed]
  exact Act.bind_apply buried _

/-- What has happened by the time that a kill returns. -/
theorem of_kill {s u : τ} {alive : Bool} (ok : kill p run h s = .ok alive u) :
    (p.lift (close h) s = (none, u) ∧ alive = false) ∨
      ∃ obituaries t, p.lift (close h) s = (some obituaries, t) ∧
        obituaries.forM (run h) t = .ok () u ∧ alive = true := by
  rw [kill, Act.bind_apply (Act.modifyGet_apply _ s)] at ok
  generalize p.lift (close h) s = closed at ok ⊢
  obtain ⟨found, t⟩ := closed
  cases found with
  | none =>
    cases ok
    exact .inl ⟨rfl, rfl⟩
  | some obituaries =>
    obtain ⟨_, u', buried, done⟩ := Act.of_bind ok
    cases done
    exact .inr ⟨obituaries, t, rfl, buried, rfl⟩

theorem close_of_dead {m : Mailboxes ω} (dead : m.isAlive h = false) : m.close h = (none, m) := by
  rw [isAlive, Option.isSome_eq_false_iff, Option.isNone_iff_eq_none] at dead
  rw [close, dead]

theorem close_of_ends {m : Mailboxes ω} {obituaries : List ω}
    (alive : m.ends h = some (true, obituaries)) : m.close h =
      (some obituaries, m.update h fun b => { b with isOpen := false, obituaries := [] }) := by
  obtain ⟨b, found, eq⟩ := Option.map_eq_some_iff.mp alive
  obtain ⟨isOpen, rfl⟩ := Prod.mk.inj eq
  have box : m.openBox? h = some b := Option.filter_eq_some_iff.mpr ⟨found, isOpen⟩
  rw [close, box]

end Killing

end Mailboxes

end StorageBus
