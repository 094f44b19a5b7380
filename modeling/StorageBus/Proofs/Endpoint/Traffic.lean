import StorageBus.Proofs.Endpoint.Mailboxes

/-!
# Traffic at many endpoints

Calls are posted to any number of endpoints while their workers take steps, endpoints come and are
killed, and somebody waits for a mailbox to be emptied. A kill first takes the endpoint off the
list, from where on nobody reaches it any more, and then closes its mailbox; in between the worker
may still be at work. In whatever order all this happens, every endpoint is given its calls in the
order in which they were accepted.

## Main definitions

* `Traffic` — mailboxes, and which of them are about to be closed.
* `Traffic.Deed`, `Traffic.Step`, `Traffic.Steps` — what was done, with the answers, and histories.
* `Traffic.accepted`, `Traffic.dispatched` — the calls that an endpoint has taken and handed on.
* `Traffic.Account` — what can be said of an endpoint after any history.

## Main results

* `Traffic.Step.elsewhere` — what is done at one endpoint is nothing to the others.
* `Traffic.Steps.traced` — what a history leaves in a mailbox.
* `Traffic.Traced.exists_passed` — a flush comes through if the worker goes on.
* `Traffic.Steps.fifo` — calls are handed on in order, up to a flush all of them, and after a
  kill no more than the one that is on its way.
-/
namespace StorageBus

/-- Mailboxes, of which some are off the list and about to be closed. -/
structure Traffic (ω : Type) where
  mail : Mailboxes ω := {}
  leaving : List Handle := []

namespace Traffic

variable {ω α : Type}

/-! ## Steps -/

/-- What was done at an endpoint, and the answer. -/
inductive Deed where
  | enrolled (h : Handle)
  | posted (h : Handle) (c : Call) (answer : Except Failure Unit)
  /-- A flush has left its marker, if the endpoint was there. -/
  | marked (h : Handle) (ticket : Nat) (sent : Bool)
  | linked (h : Handle) (answer : Except Failure Unit)
  /-- A kill has taken the endpoint off the list, if it was there. -/
  | unlisted (h : Handle) (found : Bool)
  /-- A kill has closed the mailbox. -/
  | closed (h : Handle)
  | worked (h : Handle) (v : Mailbox.Move) (given : Option Call)

def Deed.handle : Deed → Handle
  | .enrolled h | .posted h _ _ | .marked h _ _ | .linked h _ | .unlisted h _ | .closed h
  | .worked h _ _ => h

/-- The mailbox of an endpoint, which is empty if there is no such endpoint. -/
def box (s : Traffic ω) (h : Handle) : Mailbox ω := (Table.find? h s.mail.boxes).getD {}

/-- Whether the endpoint is on the list. -/
def lists (s : Traffic ω) (h : Handle) : Bool := !s.leaving.contains h && s.mail.isAlive h

/-- Whether the endpoint's worker has passed the marker. -/
def HasPassed (s : Traffic ω) (h : Handle) (ticket : Nat) : Prop := ticket ∈ (s.box h).passed

/-- Asks for something at an endpoint. Whoever is off the list is as one who never was on it. -/
def ask (h : Handle) (op : Mailboxes ω → α × Mailboxes ω) (s : Traffic ω) : α × Traffic ω :=
  if s.leaving.contains h then ((op {}).1, s)
  else
    let (answer, mail) := op s.mail
    (answer, { s with mail })

inductive Step : Traffic ω → Deed → Traffic ω → Prop
  | enrolled {s : Traffic ω} {h : Handle} (new : Table.find? h s.mail.boxes = none) :
    Step s (.enrolled h) { s with mail := s.mail.enroll h }
  | posted {s t : Traffic ω} {h : Handle} {c : Call} {answer : Except Failure Unit}
    (asked : s.ask h (Mailboxes.post h c) = (answer, t)) : Step s (.posted h c answer) t
  | marked {s t : Traffic ω} {h : Handle} {ticket : Nat} {sent : Bool}
    (isNew : (s.box h).IsNew ticket) (asked : s.ask h (Mailboxes.mark h ticket) = (sent, t)) :
    Step s (.marked h ticket sent) t
  | linked {s t : Traffic ω} {h : Handle} {obituary : ω} {answer : Except Failure Unit}
    (asked : s.ask h (Mailboxes.link h obituary) = (answer, t)) : Step s (.linked h answer) t
  | unlisted {s : Traffic ω} {h : Handle} (there : s.lists h = true) :
    Step s (.unlisted h true) { s with leaving := h :: s.leaving }
  | missed {s : Traffic ω} {h : Handle} (gone : s.lists h = false) : Step s (.unlisted h false) s
  | closed {s : Traffic ω} {h : Handle} (leaves : h ∈ s.leaving) :
    Step s (.closed h) ⟨(s.mail.close h).2, s.leaving.filter (· ≠ h)⟩
  | worked {s : Traffic ω} {h : Handle} {v : Mailbox.Move} {given : Option Call}
    {mail : Mailboxes ω} (moved : s.mail.move h v = (given, mail)) :
    Step s (.worked h v given) { s with mail }

/-- Steps one after the other. -/
inductive Steps : Traffic ω → List Deed → Traffic ω → Prop
  | nil (s : Traffic ω) : Steps s [] s
  | cons {s t u : Traffic ω} {d : Deed} {ds : List Deed} (first : Step s d t)
    (rest : Steps t ds u) : Steps s (d :: ds) u

theorem Steps.append {s t u : Traffic ω} {ds es : List Deed} (first : Steps s ds t)
    (second : Steps t es u) : Steps s (ds ++ es) u := by
  induction first with
  | nil => exact second
  | cons step _ ih => exact .cons step (ih second)

theorem Steps.split {s u : Traffic ω} {before after : List Deed} {d : Deed}
    (steps : Steps s (before ++ d :: after) u) :
    ∃ t t', Steps s before t ∧ Step t d t' ∧ Steps t' after u := by
  induction before generalizing s with
  | nil =>
    cases steps with
    | cons first rest => exact ⟨s, _, .nil s, first, rest⟩
  | cons e before ih =>
    cases steps with
    | cons first rest =>
      obtain ⟨t, t', front, step, back⟩ := ih rest
      exact ⟨t, t', .cons first front, step, back⟩

/-! ## Histories -/

/-- The job that an endpoint takes by a deed. -/
def Deed.job? (h : Handle) : Deed → Option Job
  | .posted g c (.ok ()) => if g = h then some (.call c) else none
  | .marked g ticket true => if g = h then some (.marker ticket) else none
  | .posted _ _ (.error _) | .marked _ _ false | .enrolled _ | .linked _ _ | .unlisted _ _
  | .closed _ | .worked _ _ _ => none

/-- The call that an endpoint's worker hands on. -/
def Deed.given? (h : Handle) : Deed → Option Call
  | .worked g _ given => if g = h then given else none
  | .enrolled _ | .posted _ _ _ | .marked _ _ _ | .linked _ _ | .unlisted _ _ | .closed _ => none

/-- Whether an endpoint neither comes nor goes by a deed. -/
def Deed.Quiet (h : Handle) (d : Deed) : Prop :=
  d ≠ .enrolled h ∧ d ≠ .unlisted h true ∧ d ≠ .closed h

/-- The jobs that an endpoint has taken. -/
def jobs (h : Handle) (history : List Deed) : List Job := history.filterMap (Deed.job? h)

/-- The calls that an endpoint has taken. -/
def accepted (h : Handle) (history : List Deed) : List Call := Mailbox.calls (jobs h history)

/-- The calls that an endpoint's worker has handed on. -/
def dispatched (h : Handle) (history : List Deed) : List Call :=
  history.filterMap (Deed.given? h)

/-- Whether an endpoint has come, and no kill has taken it off the list. -/
def Listed (h : Handle) (history : List Deed) : Prop :=
  .enrolled h ∈ history ∧ .unlisted h true ∉ history

theorem Deed.job?_of_ne {d : Deed} {h : Handle} (other : d.handle ≠ h) : d.job? h = none := by
  unfold Deed.job?
  split <;> first | rfl | exact if_neg other

theorem Deed.given?_of_ne {d : Deed} {h : Handle} (other : d.handle ≠ h) : d.given? h = none := by
  unfold Deed.given?
  split <;> first | rfl | exact if_neg other

@[simp] theorem jobs_append (h : Handle) (before after : List Deed) :
    jobs h (before ++ after) = jobs h before ++ jobs h after := List.filterMap_append

@[simp] theorem dispatched_append (h : Handle) (before after : List Deed) :
    dispatched h (before ++ after) = dispatched h before ++ dispatched h after :=
  List.filterMap_append

theorem jobs_concat {d : Deed} {h : Handle} (none : d.job? h = none) (history : List Deed) :
    jobs h (history ++ [d]) = jobs h history := by
  simp [jobs, none]

theorem dispatched_concat {d : Deed} {h : Handle} (none : d.given? h = none)
    (history : List Deed) : dispatched h (history ++ [d]) = dispatched h history := by
  simp [dispatched, none]

/-! ## Asking -/

variable {s t : Traffic ω} {h g : Handle}

/-- The traffic with a mailbox changed. -/
def update (h : Handle) (f : Mailbox ω → Mailbox ω) (s : Traffic ω) : Traffic ω :=
  { s with mail := s.mail.update h f }

theorem lists_iff : s.lists h = true ↔ h ∉ s.leaving ∧ s.mail.isAlive h = true := by
  simp [lists]

/-- Who asks for a change of a mailbox gets it exactly if the endpoint is on the list. -/
theorem ask_eq {op : Mailboxes ω → α × Mailboxes ω} {yes no : α} {f : Mailbox ω → Mailbox ω}
    (shape : ∀ m, op m = if m.isAlive h then (yes, m.update h f) else (no, m)) :
    s.ask h op = if s.lists h then (yes, s.update h f) else (no, s) := by
  rw [ask, shape, shape]
  by_cases leaves : h ∈ s.leaving
  · have unlisted : s.lists h = false := by simp [lists, leaves]
    have unknown : Mailboxes.isAlive h ({} : Mailboxes ω) = false := rfl
    simp [leaves, unlisted, unknown]
  · cases alive : s.mail.isAlive h <;> simp [leaves, lists, alive, update]

theorem ask_mark (ticket : Nat) : s.ask h (Mailboxes.mark h ticket) =
    if s.lists h then (true, s.update h (·.push (.marker ticket))) else (false, s) :=
  ask_eq fun _ => rfl

theorem ask_link (obituary : ω) : s.ask h (Mailboxes.link h obituary) =
    if s.lists h then
      (.ok (), s.update h fun b => { b with obituaries := b.obituaries ++ [obituary] })
    else (.error .deadObject, s) :=
  ask_eq fun _ => rfl

theorem ask_post (c : Call) : s.ask h (Mailboxes.post h c) =
    if c.bytes.length ≤ maxParcelSize then
      if s.lists h then (.ok (), s.update h (·.push (.call c))) else (.error .deadObject, s)
    else (.error (.tooLarge c.bytes.length maxParcelSize), s) := by
  by_cases fits : c.bytes.length ≤ maxParcelSize
  · rw [if_pos fits]
    refine ask_eq fun m => ?_
    rw [Mailboxes.post]
    exact if_neg (Nat.not_lt.mpr fits)
  · have refused (m : Mailboxes ω) :
        m.post h c = (.error (.tooLarge c.bytes.length maxParcelSize), m) := by
      rw [Mailboxes.post]
      exact if_pos (Nat.not_le.mp fits)
    rw [if_neg fits, ask, refused, refused]
    exact ite_self _

/-! ## Boxes -/

theorem find?_update (h g : Handle) (f : Mailbox ω → Mailbox ω) (s : Traffic ω) :
    Table.find? g (s.update h f).mail.boxes =
      if g = h then (Table.find? h s.mail.boxes).map f else Table.find? g s.mail.boxes :=
  s.mail.find?_update h g f

theorem isAlive_eq (s : Traffic ω) (h : Handle) :
    s.mail.isAlive h = ((Table.find? h s.mail.boxes).isSome && (s.box h).isOpen) := by
  cases found : Table.find? h s.mail.boxes with
  | none => simp [Mailboxes.isAlive, Mailboxes.openBox?, found]
  | some b => simp [Mailboxes.isAlive_of_find? found, box, found]

/-- A worker of an endpoint that does not exist does nothing. -/
theorem move_box (s : Traffic ω) (h : Handle) (v : Mailbox.Move) :
    (s.mail.move h v).1 = ((s.box h).move v).1 ∧
      ∀ g, Table.find? g (s.mail.move h v).2.boxes =
        if g = h then (Table.find? h s.mail.boxes).map fun _ => ((s.box h).move v).2
        else Table.find? g s.mail.boxes := by
  cases found : Table.find? h s.mail.boxes with
  | none =>
    have nothing : s.mail.move h v = (none, s.mail) := by rw [Mailboxes.move, found]
    rw [nothing, box, found]
    refine ⟨by cases v <;> rfl, fun g => ?_⟩
    split
    · next same => rw [same, found, Option.map_none]
    · rfl
  | some b =>
    rw [box, found]
    exact ⟨(Mailboxes.find?_move found v h).1, fun g => (Mailboxes.find?_move found v g).2⟩

theorem box_move {v : Mailbox.Move} {given : Option Call} {mail : Mailboxes ω}
    (moved : s.mail.move h v = (given, mail)) :
    given = ((s.box h).move v).1 ∧ box { s with mail } h = ((s.box h).move v).2 := by
  obtain ⟨same, after⟩ := s.move_box h v
  have after := after h
  rw [moved] at same after
  rw [if_pos rfl] at after
  refine ⟨same, ?_⟩
  rw [box, after]
  cases found : Table.find? h s.mail.boxes with
  | none =>
    rw [box, found]
    cases v <;> rfl
  | some b => rfl

theorem find?_close (s : Traffic ω) (h g : Handle) :
    Table.find? g (s.mail.close h).2.boxes =
      if g = h ∧ s.mail.isAlive h = true then
        (Table.find? h s.mail.boxes).map fun b => { b with isOpen := false, obituaries := [] }
      else Table.find? g s.mail.boxes := by
  rw [Mailboxes.close]
  cases found : s.mail.openBox? h with
  | none => simp [Mailboxes.isAlive, found]
  | some b => simp [Mailboxes.isAlive, found, Mailboxes.find?_update]

/-! ## Elsewhere -/

/-- What is done at one endpoint is nothing to another. -/
structure Untouched (g : Handle) (s : Traffic ω) (d : Deed) (t : Traffic ω) : Prop where
  mailbox : Table.find? g t.mail.boxes = Table.find? g s.mail.boxes
  leaving : g ∈ t.leaving ↔ g ∈ s.leaving
  job? : d.job? g = none
  given? : d.given? g = none

theorem Untouched.refl (d : Deed) (other : d.handle ≠ g) : Untouched g s d s where
  mailbox := rfl
  leaving := .rfl
  job? := Deed.job?_of_ne other
  given? := Deed.given?_of_ne other

theorem Untouched.of_find? {d : Deed} {mail : Mailboxes ω} (other : d.handle ≠ g)
    (same : Table.find? g mail.boxes = Table.find? g s.mail.boxes) :
    Untouched g s d { s with mail } :=
  { Untouched.refl (s := s) d other with mailbox := same, leaving := .rfl }

theorem Step.elsewhere {d : Deed} (step : Step s d t) (other : d.handle ≠ g) :
    Untouched g s d t := by
  have refl : Untouched g s d s := .refl d other
  have update (f : Mailbox ω → Mailbox ω) : Untouched g s d (s.update d.handle f) :=
    .of_find? other (by rw [Mailboxes.find?_update, if_neg (Ne.symm other)])
  cases step with
  | @enrolled h new =>
    refine .of_find? other ?_
    have last := Table.find?_add h g ({} : Mailbox ω) s.mail.boxes
    have different : h ≠ g := other
    rwa [if_neg different, Option.or_none] at last
  | posted asked =>
    rw [ask_post] at asked
    split at asked
    · split at asked <;> cases asked
      · exact update _
      · exact refl
    · cases asked
      exact refl
  | marked isNew asked =>
    rw [ask_mark] at asked
    split at asked <;> cases asked
    · exact update _
    · exact refl
  | linked asked =>
    rw [ask_link] at asked
    split at asked <;> cases asked
    · exact update _
    · exact refl
  | @unlisted h there =>
    have different : g ≠ h := Ne.symm other
    exact { refl with leaving := by simp [different] }
  | missed gone => exact refl
  | @closed h leaves =>
    have different : g ≠ h := Ne.symm other
    exact { refl with
      mailbox := by rw [find?_close, if_neg (fun both => different both.1)]
      leaving := by simp [different] }
  | @worked h v given mail moved =>
    have different : g ≠ h := Ne.symm other
    have after := (s.move_box h v).2 g
    rw [moved, if_neg different] at after
    exact .of_find? other after

/-! ## What a history leaves -/

/-- What deeds leave of an endpoint: its mailbox, and whether it is there, about to be closed, or
closed. -/
structure Traced (h : Handle) (history : List Deed) (s : Traffic ω) : Prop where
  keeps : ∃ done, (s.box h).Keeps (jobs h history) done (dispatched h history)
  known : (Table.find? h s.mail.boxes).isSome = true ↔ .enrolled h ∈ history
  leaving : h ∈ s.leaving ↔ .unlisted h true ∈ history ∧ .closed h ∉ history
  isOpen : (s.box h).isOpen = true ↔ .closed h ∉ history
  unlisted : .unlisted h true ∈ history → .enrolled h ∈ history
  closed : .closed h ∈ history → .unlisted h true ∈ history

namespace Traced

variable {history : List Deed} {d : Deed}

theorem empty (h : Handle) : Traced h [] ({} : Traffic ω) where
  keeps := ⟨[], .fresh⟩
  known := by simp
  leaving := by simp
  isOpen := by simp [box]
  unlisted := by simp
  closed := by simp

theorem lists_iff (traced : Traced h history s) : s.lists h = true ↔ Listed h history := by
  have leaving := traced.leaving
  have isOpen := traced.isOpen
  have unlisted := traced.unlisted
  have closed := traced.closed
  rw [Traffic.lists_iff, isAlive_eq, Bool.and_eq_true, traced.known, Listed]
  grind

/-- A deed by which the endpoint neither comes nor goes. -/
theorem quietly (traced : Traced h history s)
    (quiet : d.Quiet h)
    (known : (Table.find? h t.mail.boxes).isSome = (Table.find? h s.mail.boxes).isSome)
    (leaving : h ∈ t.leaving ↔ h ∈ s.leaving) (isOpen : (t.box h).isOpen = (s.box h).isOpen)
    (keeps : ∃ done, (t.box h).Keeps (jobs h (history ++ [d])) done
      (dispatched h (history ++ [d]))) : Traced h (history ++ [d]) t := by
  obtain ⟨unenrolled, ununlisted, unclosed⟩ := quiet
  have same (e : Deed) (other : d ≠ e) : e ∈ history ++ [d] ↔ e ∈ history := by
    simp [other.symm]
  refine ⟨keeps, ?_, ?_, ?_, ?_, ?_⟩
  · rw [known, same _ unenrolled, traced.known]
  · rw [leaving, same _ ununlisted, same _ unclosed, traced.leaving]
  · rw [isOpen, same _ unclosed, traced.isOpen]
  · rw [same _ ununlisted, same _ unenrolled]
    exact traced.unlisted
  · rw [same _ unclosed, same _ ununlisted]
    exact traced.closed

/-- A deed by which nothing happens to the endpoint. -/
theorem untouched (traced : Traced h history s)
    (quiet : d.Quiet h)
    (untouched : Untouched h s d t) : Traced h (history ++ [d]) t := by
  have same : t.box h = s.box h := by rw [box, untouched.mailbox, box]
  refine traced.quietly quiet (by rw [untouched.mailbox]) untouched.leaving (by rw [same]) ?_
  rw [jobs_concat untouched.job?, dispatched_concat untouched.given?, same]
  exact traced.keeps

/-- A deed by which the mailbox is changed. -/
theorem changed (traced : Traced h history s)
    (quiet : d.Quiet h)
    (there : s.lists h = true) {f : Mailbox ω → Mailbox ω} (isOpen : ∀ b, (f b).isOpen = b.isOpen)
    (keeps : ∀ done, (s.box h).Keeps (jobs h history) done (dispatched h history) →
      (f (s.box h)).Keeps (jobs h (history ++ [d])) done (dispatched h (history ++ [d]))) :
    Traced h (history ++ [d]) (s.update h f) := by
  have alive := (Traffic.lists_iff.mp there).2
  obtain ⟨b, found, -⟩ := Mailboxes.isAlive_iff.mp alive
  have after : (s.update h f).box h = f (s.box h) := by
    rw [box, find?_update, if_pos rfl, found, box, found]
    rfl
  refine traced.quietly quiet ?_ .rfl (by rw [after, isOpen]) ?_
  · rw [find?_update, if_pos rfl, Option.isSome_map]
  · obtain ⟨done, kept⟩ := traced.keeps
    rw [after]
    exact ⟨done, keeps done kept⟩

/-- A deed that is refused. -/
theorem refused (traced : Traced h history s)
    (quiet : d.Quiet h) (job? : d.job? h = none)
    (given? : d.given? h = none) : Traced h (history ++ [d]) s :=
  traced.untouched quiet ⟨rfl, .rfl, job?, given?⟩

/-- A deed by which the endpoint takes a job. -/
theorem pushed (traced : Traced h history s)
    (quiet : d.Quiet h) (there : s.lists h = true)
    {job : Job} (job? : d.job? h = some job) (given? : d.given? h = none) :
    Traced h (history ++ [d]) (s.update h (·.push job)) := by
  refine traced.changed quiet there (fun _ => rfl) fun done keeps => ?_
  have more : jobs h [d] = [job] := by simp [jobs, job?]
  rw [jobs_append, more, dispatched_concat given?]
  exact keeps.push job

/-- An endpoint that comes. -/
theorem enrolled (traced : Traced h history s) (new : Table.find? h s.mail.boxes = none) :
    Traced h (history ++ [.enrolled h]) { s with mail := s.mail.enroll h } := by
  have last := Table.find?_add h h ({} : Mailbox ω) s.mail.boxes
  rw [if_pos rfl, new, Option.none_or] at last
  have fresh : s.box h = {} := by rw [box, new, Option.getD_none]
  have same : box { s with mail := s.mail.enroll h } h = s.box h := by
    rw [fresh, box]
    exact congrArg (Option.getD · _) last
  have unknown : .enrolled h ∉ history := by simp [← traced.known, new]
  have ununlisted : .unlisted h true ∉ history := fun mem => unknown (traced.unlisted mem)
  have unclosed : .closed h ∉ history := fun mem => ununlisted (traced.closed mem)
  exact {
    keeps := by
      rw [jobs_concat rfl, dispatched_concat rfl, same]
      exact traced.keeps
    known := by simp [Mailboxes.enroll, last]
    leaving := by simp [traced.leaving, ununlisted]
    isOpen := by simp [fresh, same, unclosed]
    unlisted := by simp
    closed := by simp [unclosed] }

/-- An endpoint that is taken off the list. -/
theorem unlisting (traced : Traced h history s) (there : s.lists h = true) :
    Traced h (history ++ [.unlisted h true]) { s with leaving := h :: s.leaving } := by
  obtain ⟨enrolled, ununlisted⟩ := traced.lists_iff.mp there
  have unclosed : .closed h ∉ history := fun mem => ununlisted (traced.closed mem)
  exact {
    keeps := by
      rw [jobs_concat rfl, dispatched_concat rfl]
      exact traced.keeps
    known := by simpa using traced.known
    leaving := by simp [unclosed]
    isOpen := by
      simp only [List.mem_append, List.mem_singleton, reduceCtorEq, or_false]
      exact traced.isOpen
    unlisted := by simp [enrolled]
    closed := by simp }

/-- An endpoint whose mailbox is closed. -/
theorem closing (traced : Traced h history s) (leaves : h ∈ s.leaving) :
    Traced h (history ++ [.closed h])
      ⟨(s.mail.close h).2, s.leaving.filter (· ≠ h)⟩ := by
  obtain ⟨unlisted, unclosed⟩ := traced.leaving.mp leaves
  have enrolled := traced.unlisted unlisted
  have isOpen := traced.isOpen.mpr unclosed
  obtain ⟨b, found⟩ := Option.isSome_iff_exists.mp (traced.known.mpr enrolled)
  have alive : s.mail.isAlive h = true := by simp [isAlive_eq, found, isOpen]
  have after := s.find?_close h h
  rw [if_pos ⟨rfl, alive⟩, found, Option.map_some] at after
  obtain ⟨done, keeps⟩ := traced.keeps
  rw [box, found] at isOpen keeps
  exact {
    keeps := by
      rw [jobs_concat rfl, dispatched_concat rfl, box, after]
      exact ⟨done, keeps.close isOpen []⟩
    known := by simp [after, enrolled]
    leaving := by simp
    isOpen := by simp [box, after]
    unlisted := by simp [enrolled]
    closed := by simp [unlisted] }

/-- An endpoint whose worker takes a step. -/
theorem working (traced : Traced h history s) {v : Mailbox.Move} {given : Option Call}
    {mail : Mailboxes ω} (moved : s.mail.move h v = (given, mail)) :
    Traced h (history ++ [.worked h v given]) { s with mail } := by
  obtain ⟨rfl, box⟩ := box_move moved
  refine traced.quietly (by simp [Deed.Quiet]) ?_ .rfl ?_ ?_
  · have after := (s.move_box h v).2 h
    rw [moved, if_pos rfl] at after
    simp only [after, Option.isSome_map]
  · rw [box, Mailbox.isOpen_move]
  · obtain ⟨done, keeps⟩ := traced.keeps
    obtain ⟨more, moved⟩ := keeps.move v
    have gave : dispatched h [.worked h v ((s.box h).move v).1] = ((s.box h).move v).1.toList := by
      cases eq : ((s.box h).move v).1 <;> simp [dispatched, Deed.given?]
    rw [box, jobs_concat rfl, dispatched_append, gave]
    exact ⟨_, moved⟩

theorem step (traced : Traced h history s) (step : Step s d t) : Traced h (history ++ [d]) t := by
  by_cases elsewhere : d.handle ≠ h
  · refine traced.untouched ⟨?_, ?_, ?_⟩ (step.elsewhere elsewhere) <;>
      rintro rfl <;> exact elsewhere rfl
  have here : d.handle = h := Decidable.not_not.mp elsewhere
  cases step with
  | @enrolled g new =>
    obtain rfl : g = h := here
    exact traced.enrolled new
  | @posted _ g c answer asked =>
    obtain rfl : g = h := here
    rw [ask_post] at asked
    split at asked
    · split at asked <;> cases asked
      · exact traced.pushed (by simp [Deed.Quiet]) ‹_› (if_pos rfl) rfl
      · exact traced.refused (by simp [Deed.Quiet]) rfl rfl
    · cases asked
      exact traced.refused (by simp [Deed.Quiet]) rfl rfl
  | @marked _ g ticket sent isNew asked =>
    obtain rfl : g = h := here
    rw [ask_mark] at asked
    split at asked <;> cases asked
    · exact traced.pushed (by simp [Deed.Quiet]) ‹_› (if_pos rfl) rfl
    · exact traced.refused (by simp [Deed.Quiet]) rfl rfl
  | @linked _ g obituary answer asked =>
    obtain rfl : g = h := here
    rw [ask_link] at asked
    split at asked <;> cases asked
    · refine traced.changed (by simp [Deed.Quiet]) ‹_› (fun _ => rfl) fun done keeps => ?_
      rw [jobs_concat rfl, dispatched_concat rfl]
      exact keeps.withObituaries _
    · exact traced.refused (by simp [Deed.Quiet]) rfl rfl
  | @unlisted g there =>
    obtain rfl : g = h := here
    exact traced.unlisting there
  | missed gone => exact traced.refused (by simp [Deed.Quiet]) rfl rfl
  | @closed g leaves =>
    obtain rfl : g = h := here
    exact traced.closing leaves
  | @worked g v given mail moved =>
    obtain rfl : g = h := here
    exact traced.working moved

end Traced

/-! ## Whole histories -/

/-- A kill that nothing comes in between does no more than close the mailbox. -/
theorem Steps.kill_undisturbed (steps : Steps s [.unlisted h true, .closed h] t) :
    t = { s with mail := (s.mail.close h).2 } := by
  cases steps with
  | cons first rest =>
    cases first with
    | unlisted there =>
      cases rest with
      | cons second rest =>
        cases second with
        | closed leaves =>
          cases rest
          have absent : h ∉ s.leaving := (lists_iff.mp there).1
          have others : (h :: s.leaving).filter (· ≠ h) = s.leaving := by
            rw [List.filter_cons_of_neg (by simp)]
            exact List.filter_eq_self.mpr fun g mem => by grind
          rw [others]

theorem Steps.traced {ds history : List Deed} (steps : Steps s ds t)
    (traced : Traced h history s) : Traced h (history ++ ds) t := by
  induction steps generalizing history with
  | nil => simpa using traced
  | @cons s t u d ds first rest ih =>
    rw [List.append_cons]
    exact ih (traced.step first)

/-- An endpoint takes a job only while it is on the list. -/
theorem Step.lists_of_job? {d : Deed} (step : Step s d t) {job : Job}
    (takes : d.job? h = some job) : s.lists h = true := by
  have here : d.handle = h := by
    refine Decidable.of_not_not fun other => ?_
    rw [Deed.job?_of_ne other] at takes
    cases takes
  cases step with
  | @posted _ g c answer asked =>
    obtain rfl : g = h := here
    rw [ask_post] at asked
    split at asked
    · split at asked
      · assumption
      · cases asked
        cases takes
    · cases asked
      cases takes
  | @marked _ g ticket sent isNew asked =>
    obtain rfl : g = h := here
    rw [ask_mark] at asked
    split at asked
    · assumption
    · cases asked
      cases takes
  | enrolled | linked | unlisted | missed | closed | worked => cases takes

/-- At a mailbox that is closed all that remains to be handed on is a call that was cleared
before. -/
theorem Traced.after_close {history : List Deed} {d : Deed} (traced : Traced h history s)
    (closed : .closed h ∈ history) (step : Step s d t) :
    (d.given? h).toList ++ (t.box h).cleared?.toList = (s.box h).cleared?.toList := by
  have unlisted : ¬ s.lists h = true := fun there =>
    (traced.lists_iff.mp there).2 (traced.closed closed)
  by_cases elsewhere : d.handle ≠ h
  · have untouched := step.elsewhere elsewhere
    rw [untouched.given?, box, untouched.mailbox]
    rfl
  have here : d.handle = h := Decidable.not_not.mp elsewhere
  cases step with
  | @enrolled g new =>
    obtain rfl : g = h := here
    have known := traced.known.mpr (traced.unlisted (traced.closed closed))
    simp [new] at known
  | @posted _ g c answer asked =>
    obtain rfl : g = h := here
    rw [ask_post, if_neg unlisted] at asked
    split at asked <;> cases asked <;> rfl
  | @marked _ g ticket sent isNew asked =>
    obtain rfl : g = h := here
    rw [ask_mark, if_neg unlisted] at asked
    cases asked
    rfl
  | @linked _ g obituary answer asked =>
    obtain rfl : g = h := here
    rw [ask_link, if_neg unlisted] at asked
    cases asked
    rfl
  | unlisted there => rfl
  | missed gone => rfl
  | @closed g leaves =>
    obtain rfl : g = h := here
    exact absurd closed (traced.leaving.mp leaves).2
  | @worked g v given mail moved =>
    obtain rfl : g = h := here
    obtain ⟨rfl, box⟩ := box_move moved
    have isClosed : (s.box g).isOpen = false := by
      rw [← Bool.not_eq_true, traced.isOpen]
      exact fun unclosed => unclosed closed
    rw [box, Deed.given?, if_pos rfl]
    exact Mailbox.cleared?_move isClosed v

theorem Steps.after_close {history ds : List Deed} (steps : Steps s ds t)
    (traced : Traced h history s) (closed : .closed h ∈ history) :
    accepted h ds = [] ∧
      dispatched h ds ++ (t.box h).cleared?.toList = (s.box h).cleared?.toList := by
  induction steps generalizing history with
  | nil s => exact ⟨rfl, rfl⟩
  | @cons s t u d ds first rest ih =>
    obtain ⟨refused, left⟩ := ih (traced.step first) (by simp [closed])
    have gone := traced.after_close closed first
    have nothing : d.job? h = none := by
      refine Option.eq_none_iff_forall_ne_some.mpr fun job takes => ?_
      have listed := traced.lists_iff.mp (first.lists_of_job? takes)
      exact listed.2 (traced.closed closed)
    refine ⟨?_, ?_⟩
    · rw [← refused, accepted, accepted, jobs, List.filterMap_cons_none nothing, jobs]
    · rw [← gone, ← left, ← List.append_assoc]
      congr 1
      cases given : d.given? h <;> simp [dispatched, given]

/-! ## Endpoints -/

/-- The worker of an endpoint may take all of these steps. -/
theorem Steps.exists_moves (h : Handle) (vs : List Mailbox.Move) (s : Traffic ω) :
    ∃ ds t, Steps s ds t ∧ (∀ d ∈ ds, ∃ v given, d = .worked h v given) ∧
      t.box h = (Mailbox.moves vs (s.box h)).2 := by
  induction vs generalizing s with
  | nil => exact ⟨[], s, .nil s, by simp, rfl⟩
  | cons v vs ih =>
    cases moved : s.mail.move h v with
    | mk given mail =>
      obtain ⟨ds, t, steps, only, after⟩ := ih { s with mail }
      rw [(box_move moved).2] at after
      refine ⟨_, t, .cons (.worked moved) steps, ?_, after⟩
      intro d mem
      rcases List.mem_cons.mp mem with rfl | mem
      · exact ⟨v, given, rfl⟩
      · exact only d mem

/-- Once the worker has gone on for long enough it has passed every marker in the mailbox. -/
theorem Traced.exists_passed {history : List Deed} (traced : Traced h history s) {ticket : Nat}
    (marked : .marker ticket ∈ jobs h history) :
    ∃ ds t, Steps s ds t ∧ (∀ d ∈ ds, ∃ v given, d = .worked h v given) ∧
      t.HasPassed h ticket := by
  obtain ⟨vs, idle⟩ := (s.box h).exists_idle
  obtain ⟨ds, t, steps, only, after⟩ := Steps.exists_moves h vs s
  rw [← after] at idle
  obtain ⟨done, keeps⟩ := (steps.traced traced).keeps
  refine ⟨ds, t, steps, only, (keeps.passed ticket).mpr ?_⟩
  rw [← keeps.done_of_idle idle, jobs_append]
  exact List.mem_append_left _ marked

theorem Steps.posted_iff {before after : List Deed} {c : Call} {answer : Except Failure Unit}
    (steps : Steps s (before ++ .posted h c answer :: after) t) (traced : Traced h [] s) :
    answer = .ok () ↔ c.bytes.length ≤ maxParcelSize ∧ Listed h before := by
  obtain ⟨u, u', front, step, -⟩ := steps.split
  have traced : Traced h before u := front.traced traced
  cases step with
  | posted asked =>
    rw [ask_post] at asked
    rw [← traced.lists_iff]
    split at asked
    · split at asked <;> cases asked <;> simp_all
    · next exceeds =>
      cases asked
      simp [exceeds]

theorem Steps.marked_iff {before after : List Deed} {ticket : Nat} {sent : Bool}
    (steps : Steps s (before ++ .marked h ticket sent :: after) t) (traced : Traced h [] s) :
    sent = true ↔ Listed h before := by
  obtain ⟨u, u', front, step, -⟩ := steps.split
  have traced : Traced h before u := front.traced traced
  cases step with
  | marked isNew asked =>
    rw [ask_mark] at asked
    rw [← traced.lists_iff]
    split at asked <;> cases asked <;> simp_all

theorem Steps.unlisted_iff {before after : List Deed} {found : Bool}
    (steps : Steps s (before ++ .unlisted h found :: after) t) (traced : Traced h [] s) :
    found = true ↔ Listed h before := by
  obtain ⟨u, u', front, step, -⟩ := steps.split
  have traced : Traced h before u := front.traced traced
  cases step with
  | unlisted there => simpa using traced.lists_iff.mp there
  | missed gone => simp [← traced.lists_iff, gone]

/-- What was accepted before a marker that was passed is handed on. -/
theorem Steps.flushed {before after : List Deed} {ticket : Nat}
    (steps : Steps s (before ++ .marked h ticket true :: after) t) (traced : Traced h [] s)
    (unclosed : .closed h ∉ before ++ .marked h ticket true :: after)
    (passed : t.HasPassed h ticket) :
    accepted h before <+: dispatched h (before ++ .marked h ticket true :: after) := by
  obtain ⟨u, u', front, step, -⟩ := steps.split
  obtain ⟨_, kept⟩ := (front.traced traced).keeps
  -- The ticket was new, so it is this marker that was passed and none before it.
  have unmarked : .marker ticket ∉ jobs h before := by
    cases step with
    | marked isNew asked => exact kept.not_mem_of_isNew isNew
  have final : Traced h (before ++ .marked h ticket true :: after) t := steps.traced traced
  obtain ⟨_, keeps⟩ := final.keeps
  have split : jobs h (before ++ .marked h ticket true :: after) =
      jobs h before ++ .marker ticket :: jobs h after := by
    simp [jobs, Deed.job?]
  rw [split] at keeps
  exact keeps.given_of_passed unmarked passed (final.isOpen.mpr unclosed)

/-- After a kill nothing is accepted, and at most the cleared call is handed on. -/
theorem Steps.killed {before after : List Deed}
    (steps : Steps s (before ++ .closed h :: after) t) (traced : Traced h [] s) :
    .unlisted h true ∈ before ∧ accepted h after = [] ∧
      ∃ u, Steps s (before ++ [.closed h]) u ∧ Steps u after t ∧
        dispatched h after <+: (u.box h).cleared?.toList := by
  obtain ⟨u, u', front, step, back⟩ := steps.split
  have traced : Traced h before u := front.traced traced
  have closed : .closed h ∈ before ++ [.closed h] := by simp
  obtain ⟨refused, left⟩ := back.after_close (traced.step step) closed
  refine ⟨?_, refused, u', front.append (.cons step (.nil u')), back, _, left⟩
  cases step with
  | closed leaves => exact (traced.leaving.mp leaves).1

/-- What can be said of an endpoint after a history that began with no endpoint at all. -/
structure Account (history : List Deed) (t : Traffic ω) (h : Handle) : Prop where
  /-- Calls are handed on in the order in which they were accepted. -/
  inOrder : dispatched h history <+: accepted h history
  /-- A call that fits is accepted as long as the endpoint is on the list. -/
  posted : ∀ before c answer after, history = before ++ .posted h c answer :: after →
    (answer = .ok () ↔ c.bytes.length ≤ maxParcelSize ∧ Listed h before)
  /-- A flush leaves a marker as long as the endpoint is on the list. -/
  marked : ∀ before ticket sent after, history = before ++ .marked h ticket sent :: after →
    (sent = true ↔ Listed h before)
  /-- A worker that goes on passes the marker. When it has, and nobody has closed the mailbox,
  everything that was accepted before is handed on. -/
  flushed : ∀ before ticket after, history = before ++ .marked h ticket true :: after →
    (∃ ds u, Steps t ds u ∧ (∀ d ∈ ds, ∃ v given, d = .worked h v given) ∧
      u.HasPassed h ticket) ∧
      (.closed h ∉ history → t.HasPassed h ticket → accepted h before <+: dispatched h history)
  /-- A kill finds the endpoint as long as it is on the list. -/
  unlisted : ∀ before found after, history = before ++ .unlisted h found :: after →
    (found = true ↔ Listed h before)
  /-- A kill takes the endpoint off the list before it closes the mailbox. After that nothing is
  accepted, and nothing is handed on but a call that was already cleared. -/
  killed : ∀ before after, history = before ++ .closed h :: after →
    .unlisted h true ∈ before ∧ accepted h after = [] ∧
      ∃ s, Steps {} (before ++ [.closed h]) s ∧ Steps s after t ∧
        dispatched h after <+: (s.box h).cleared?.toList
  /-- What is done at other endpoints next does not touch this one. -/
  elsewhere : ∀ d u, Step t d u → d.handle ≠ h → Untouched h t d u

/-- For any endpoint, after any history. -/
theorem Steps.fifo {history : List Deed} {t : Traffic ω} (steps : Steps {} history t)
    (h : Handle) : Account history t h := by
  have start : Traced h [] ({} : Traffic ω) := .empty h
  have traced : Traced h history t := steps.traced start
  obtain ⟨done, keeps⟩ := traced.keeps
  refine ⟨keeps.given_prefix_posted, ?_, ?_, ?_, ?_, ?_,
    fun d u step other => step.elsewhere other⟩
  · rintro before c answer after rfl
    exact steps.posted_iff start
  · rintro before ticket sent after rfl
    exact steps.marked_iff start
  · rintro before ticket after rfl
    exact ⟨traced.exists_passed (by simp [jobs, Deed.job?]), steps.flushed start⟩
  · rintro before found after rfl
    exact steps.unlisted_iff start
  · rintro before after rfl
    exact steps.killed start

/-- An endpoint takes three calls and is flushed after the first of them. It is killed when the
second is cleared, which is still handed on; the third is not. -/
theorem Steps.fifo_killed :
    let a : Handle := ⟨1, none⟩
    let history : List Deed := [.enrolled a, .posted a ⟨1, []⟩ (.ok ()), .marked a 0 true,
      .worked a .take none, .worked a .check none, .worked a .release (some ⟨1, []⟩),
      .worked a .take none, .worked a .check none, .posted a ⟨2, []⟩ (.ok ()),
      .posted a ⟨3, []⟩ (.ok ()), .worked a .take none, .worked a .check none,
      .unlisted a true, .posted a ⟨4, []⟩ (.error .deadObject), .closed a,
      .worked a .release (some ⟨2, []⟩)]
    ∃ t : Traffic Unit, Steps {} history t ∧ Account history t a ∧ t.HasPassed a 0 ∧
      accepted a history = [⟨1, []⟩, ⟨2, []⟩, ⟨3, []⟩] ∧
      dispatched a history = [⟨1, []⟩, ⟨2, []⟩] := by
  intro a history
  let only (b : Mailbox Unit) : Traffic Unit := { mail := ⟨[(a, b)]⟩ }
  have delivered : Steps {} (history.take 8) (only { passed := [0] }) :=
    .cons (t := only {}) (.enrolled rfl) <|
    .cons (t := only { queue := [.call ⟨1, []⟩] }) (.posted rfl) <|
    .cons (t := only { queue := [.call ⟨1, []⟩, .marker 0] })
      (.marked ⟨by decide, by decide⟩ rfl) <|
    .cons (t := only { queue := [.marker 0], hand := .taken (.call ⟨1, []⟩) }) (.worked rfl) <|
    .cons (t := only { queue := [.marker 0], hand := .cleared ⟨1, []⟩ }) (.worked rfl) <|
    .cons (t := only { queue := [.marker 0] }) (.worked rfl) <|
    .cons (t := only { hand := .taken (.marker 0) }) (.worked rfl) <|
    .cons (.worked rfl) (.nil _)
  let killed : Mailbox Unit :=
    { queue := [.call ⟨3, []⟩], hand := .cleared ⟨2, []⟩, passed := [0] }
  have ended : Steps (only { passed := [0] }) (history.drop 8)
      (only { killed with isOpen := false, hand := .empty }) :=
    .cons (t := only { queue := [.call ⟨2, []⟩], passed := [0] }) (.posted rfl) <|
    .cons (t := only { queue := [.call ⟨2, []⟩, .call ⟨3, []⟩], passed := [0] }) (.posted rfl) <|
    .cons (t := only { killed with hand := .taken (.call ⟨2, []⟩) }) (.worked rfl) <|
    .cons (t := only killed) (.worked rfl) <|
    .cons (t := { only killed with leaving := [a] }) (.unlisted rfl) <|
    .cons (t := { only killed with leaving := [a] }) (.posted rfl) <|
    .cons (t := only { killed with isOpen := false }) (.closed (by decide)) <|
    .cons (.worked rfl) (.nil _)
  have steps : Steps {} history (only { killed with isOpen := false, hand := .empty }) :=
    delivered.append ended
  exact ⟨_, steps, steps.fifo a, by simp [HasPassed, box, only, killed, Table.find?], rfl, rfl⟩

end Traffic

end StorageBus
