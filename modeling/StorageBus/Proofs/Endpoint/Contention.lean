import StorageBus.Proofs.Endpoint.Lines

/-!
# Callers that contend for a line

Any number of callers send over one line or close it, step by step and in any order. A call takes
its turn on the stream in one step, but a caller whose frame broke kills the line only in its next
step. Whoever takes its turn in between writes behind the part of the frame that is there already,
and a reader can no longer tell the frames apart. If nobody does, the stream is in order.

## Main definitions

* `Line.Progress`, `Line.Progress.advance` — how far a caller has come, and its next step.
* `Line.Scene`, `Line.Scene.play` — a line with its callers, and steps in the order of a schedule.
* `Line.Scene.history` — the turns on the stream and the kills, in their order.
* `Line.NothingFollows`, `Line.Overtaken` — whether bytes came behind a broken frame, and whether
  someone took its turn before the line was killed.

## Main results

* `Lines.send_eq_alone`, `Lines.close_eq_alone` — a caller whom nobody disturbs.
* `Line.Scene.silent_behind_kill` — a line that was killed takes no more bytes.
* `Line.Scene.in_order_unless_overtaken` — bytes come behind a broken frame exactly if its caller
  was overtaken.
-/
namespace StorageBus

variable {σ : Type} {k : Sink σ}

namespace Line

/-! ## Callers -/

/-- How far a caller has come. -/
inductive Progress where
  /-- A call that is about to look for the line. -/
  | calling (c : Call)
  /-- A call that has found the line and is about to look whether it is dead. -/
  | found (c : Call)
  /-- A call that waits for its turn. -/
  | waiting (c : Call)
  /-- The frame broke, and the line is about to be killed. -/
  | broken
  /-- The line was killed and is about to be given up. -/
  | leaving
  | answered (answer : Except Failure Unit)
  /-- Someone who is about to give the line up. -/
  | closing
  /-- The line was given up and is about to be killed. -/
  | taken
  | closed (held : Bool)

/-- The next step of a caller. A turn on the stream, with another look whether the line is dead, is
one step. -/
def Progress.advance (k : Sink σ) : Progress → Line σ → Progress × Line σ
  | .calling c, line => (if line.isHeld then .found c else .answered (.error .deadObject), line)
  | .found c, line => (if line.isDead then .answered (.error .deadObject) else .waiting c, line)
  | .waiting c, line =>
    match line.write k (Lines.frame c) with
    | (.error (.io _), line) => (.broken, line)
    | (answer, line) => (.answered answer, line)
  | .broken, line => (.leaving, line.kill)
  | .leaving, line => (.answered (.error .deadObject), line.giveUp)
  | .closing, line => if line.isHeld then (.taken, line.giveUp) else (.closed false, line)
  | .taken, line => (.closed true, line.kill)
  | .answered answer, line => (.answered answer, line)
  | .closed held, line => (.closed held, line)

/-- So many steps of one caller, with nobody else there. -/
def Progress.alone (k : Sink σ) : Nat → Progress → Line σ → Progress × Line σ
  | 0, p, line => (p, line)
  | n + 1, p, line =>
    let (p, line) := p.advance k line
    alone k n p line

end Line

namespace Lines

open Line

/-- A call that nobody disturbs. -/
theorem send_eq_alone {ls : Lines σ} {h : Handle} {line : Line σ}
    (found : Table.find? h ls.lines = some line) (c : Call) :
    (Progress.alone k 5 (.calling c) line).1 = .answered (ls.send k h c).1 ∧
      (ls.send k h c).2 = ls.update h fun _ => (Progress.alone k 5 (.calling c) line).2 := by
  have same : ls.update h (fun _ => line) = ls := by rw [update, Table.update_eq_self found rfl]
  have held := held?_of_find? found
  cases isHeld : line.isHeld with
  | false => simp [Progress.alone, Progress.advance, send, held, isHeld, same]
  | true =>
    cases isDead : line.isDead with
    | true => simp [Progress.alone, Progress.advance, send, held, Line.write, isHeld, isDead]
    | false =>
      cases wrote : line.write k (frame c) with
      | mk answer after =>
        rcases answer with (_ | _ | _ | e) | _ <;>
          simp [Progress.alone, Progress.advance, send, held, isHeld, isDead, wrote]

/-- Someone who closes a line and whom nobody disturbs. -/
theorem close_eq_alone {ls : Lines σ} {h : Handle} {line : Line σ}
    (found : Table.find? h ls.lines = some line) :
    (Progress.alone k 2 .closing line).1 = .closed (ls.close h).1 ∧
      (ls.close h).2 = ls.update h fun _ => (Progress.alone k 2 .closing line).2 := by
  have same : ls.update h (fun _ => line) = ls := by rw [update, Table.update_eq_self found rfl]
  have held := held?_of_find? found
  cases isHeld : line.isHeld with
  | false => simp [Progress.alone, Progress.advance, close, held, isHeld, same]
  | true =>
    have const : ls.update h (fun line => line.giveUp.kill) =
        ls.update h fun _ => line.giveUp.kill :=
      congrArg Lines.mk (Table.update_congr found rfl)
    simp [Progress.alone, Progress.advance, close, held, isHeld, const]

end Lines

namespace Line

/-! ## Scenes -/

/-- A line with its callers. -/
structure Scene (σ : Type) where
  line : Line σ
  callers : Nat → Progress

/-- What happens to a stream: a call has its turn and writes bytes, or the line is killed. -/
inductive Happening where
  | turn (c : Call) (answer : Except Failure Unit) (bytes : Bytes)
  | kill

def Happening.bytes : Happening → Bytes
  | .turn _ _ bytes => bytes
  | .kill => []

/-- Whether a frame broke, with some bytes of it on the stream. -/
def Happening.Broke : Happening → Prop
  | .turn _ (.error (.io _)) bytes => bytes ≠ []
  | .turn _ _ _ | .kill => False

/-- What happens to the stream at the next step of a caller. -/
def Progress.happening (w : k.Stream) (line : Line σ) : Progress → List Happening
  | .waiting c =>
    let (answer, after) := line.write k (Lines.frame c)
    [.turn c answer ((w.sent after.stream).drop (w.sent line.stream).length)]
  | .broken | .taken => [.kill]
  | .calling _ | .found _ | .leaving | .answered _ | .closing | .closed _ => []

namespace Scene

/-- The next step of one of the callers. -/
def step (k : Sink σ) (i : Nat) (s : Scene σ) : Scene σ :=
  let (p, line) := (s.callers i).advance k s.line
  { line, callers := fun j => if j = i then p else s.callers j }

/-- Steps of callers in the order of the schedule. -/
def play (k : Sink σ) (schedule : List Nat) (s : Scene σ) : Scene σ :=
  schedule.foldl (fun s i => s.step k i) s

/-- What happens to the stream meanwhile. -/
def history (w : k.Stream) : List Nat → Scene σ → List Happening
  | [], _ => []
  | i :: schedule, s => (s.callers i).happening w s.line ++ history w schedule (s.step k i)

end Scene

/-! ## Single steps -/

/-- Whether the answer to a turn fits what was written. On a line that is dead nothing is. -/
inductive Happening.Proper : Happening → Prop
  | kill : Proper .kill
  | late (c : Call) : Proper (.turn c (.error .deadObject) [])
  | written {c : Call} {answer : Except Failure Unit} {bytes : Bytes}
    (outcome : (Lines.frame c).Outcome answer bytes) : Proper (.turn c answer bytes)

/-- What is on the stream after a step, and whether the line is dead then. -/
structure Progress.Stepped (w : k.Stream) (p : Progress) (line : Line σ) : Prop where
  sent : w.sent (p.advance k line).2.stream =
    w.sent line.stream ++ (p.happening w line).flatMap Happening.bytes
  proper : ∀ e ∈ p.happening w line, e.Proper
  silent : line.isDead = true → ∀ e ∈ p.happening w line, e.bytes = []
  dead : line.isDead = true ∨ .kill ∈ p.happening w line → (p.advance k line).2.isDead = true
  once : (p.happening w line).length ≤ 1

theorem Progress.advance_waiting (c : Call) (line : Line σ) :
    (advance k (.waiting c) line).2 = (line.write k (Lines.frame c)).2 := by
  rw [advance]
  split <;> next eq => rw [eq]

theorem Progress.stepped (w : k.Stream) (p : Progress) (line : Line σ) : p.Stepped w line := by
  cases p with
  | waiting c =>
    cases isDead : line.isDead with
    | true =>
      have late : line.write k (Lines.frame c) = (.error .deadObject, line) := by
        rw [write, if_pos isDead]
      refine ⟨?_, ?_, ?_, ?_, ?_⟩ <;>
        simp [advance, happening, late, Happening.bytes, isDead, Happening.Proper.late]
    | false =>
      obtain ⟨bytes, stream, eq, outcome, sent⟩ := line.write_cases w isDead (Lines.frame c)
      have happening : Progress.happening w line (.waiting c) =
          [.turn c (line.write k (Lines.frame c)).1 bytes] := by
        rw [Progress.happening, eq]
        simp only
        rw [sent, List.drop_left]
      refine ⟨?_, ?_, ?_, ?_, ?_⟩
      · rw [advance_waiting, happening, eq]
        simp [sent, Happening.bytes]
      · rw [happening]
        simpa using Happening.Proper.written outcome
      · simp [isDead]
      · simp [isDead, happening]
      · simp [happening]
  | closing =>
    refine ⟨?_, ?_, ?_, ?_, ?_⟩ <;> cases isHeld : line.isHeld <;>
      simp [advance, happening, isHeld, giveUp]
  | calling c | found c | broken | leaving | answered answer | taken | closed held =>
    refine ⟨?_, ?_, ?_, ?_, ?_⟩ <;>
      simp [advance, happening, kill, giveUp, Happening.bytes, Happening.Proper.kill]

namespace Scene

variable (w : k.Stream) (s : Scene σ)

theorem step_line (i : Nat) : (s.step k i).line = ((s.callers i).advance k s.line).2 := rfl

/-! ## Schedules -/

/-- What was written in the turns is on the stream, in the order of the turns. -/
theorem sent_play (schedule : List Nat) : w.sent (s.play k schedule).line.stream =
    w.sent s.line.stream ++ (s.history w schedule).flatMap Happening.bytes := by
  induction schedule generalizing s with
  | nil => simp [play, history]
  | cons i schedule ih =>
    have first := ((s.callers i).stepped w s.line).sent
    rw [history, List.flatMap_append, ← List.append_assoc, ← first, ← step_line]
    exact ih (s.step k i)

theorem proper_of_mem {schedule : List Nat} {e : Happening} (mem : e ∈ s.history w schedule) :
    e.Proper := by
  induction schedule generalizing s with
  | nil => simp [history] at mem
  | cons i schedule ih =>
    rcases List.mem_append.mp mem with now | later
    · exact ((s.callers i).stepped w s.line).proper e now
    · exact ih (s.step k i) later

/-- On a line that is dead nothing is written. -/
theorem silent_of_dead {s : Scene σ} (dead : s.line.isDead = true) {schedule : List Nat}
    {e : Happening} (mem : e ∈ s.history w schedule) : e.bytes = [] := by
  induction schedule generalizing s with
  | nil => simp [history] at mem
  | cons i schedule ih =>
    have stepped := (s.callers i).stepped w s.line
    rcases List.mem_append.mp mem with now | later
    · exact stepped.silent dead e now
    · exact ih (stepped.dead (.inl dead)) later

/-- A line that was killed takes no more bytes. -/
theorem silent_behind_kill {schedule : List Nat} {before after : List Happening}
    (eq : s.history w schedule = before ++ .kill :: after) : ∀ e ∈ after, e.bytes = [] := by
  induction schedule generalizing s before with
  | nil => simp [history] at eq
  | cons i schedule ih =>
    have stepped := (s.callers i).stepped w s.line
    have once := stepped.once
    have dead := stepped.dead
    rw [history] at eq
    cases happening : (s.callers i).happening w s.line with
    | nil =>
      rw [happening] at eq
      exact ih (s.step k i) eq
    | cons e none =>
      obtain rfl : none = [] := by simpa [happening] using once
      rw [happening] at eq dead
      cases before with
      | nil =>
        obtain ⟨rfl, rest⟩ := List.cons.inj eq
        intro e mem
        rw [← rest] at mem
        exact silent_of_dead w (dead (.inr List.mem_cons_self)) mem
      | cons b before => exact ih (s.step k i) (List.cons.inj eq).2

end Scene

/-! ## Broken frames -/

/-- No byte comes behind a broken frame. -/
def NothingFollows (history : List Happening) : Prop :=
  ∀ before b after, history = before ++ b :: after → b.Broke → ∀ e ∈ after, e.bytes = []

/-- Behind a broken frame someone writes before anybody has killed the line. -/
def Overtaken (history : List Happening) : Prop :=
  ∃ before b middle e after, history = before ++ b :: (middle ++ e :: after) ∧ b.Broke ∧
    .kill ∉ middle ∧ e.bytes ≠ []

theorem Scene.nothingFollows_iff (w : k.Stream) (s : Scene σ) (schedule : List Nat) :
    NothingFollows (s.history w schedule) ↔ ¬ Overtaken (s.history w schedule) := by
  constructor
  · rintro nothing ⟨before, b, middle, e, after, eq, broke, -, some⟩
    exact some (nothing before b _ eq broke e (by simp))
  · intro untaken before b after eq broke e mem
    obtain ⟨middle, rest, rfl⟩ := List.append_of_mem mem
    by_cases killed : .kill ∈ middle
    · obtain ⟨front, back, rfl⟩ := List.append_of_mem killed
      have split : s.history w schedule =
          (before ++ b :: front) ++ .kill :: (back ++ e :: rest) := by
        rw [eq]
        simp
      exact s.silent_behind_kill w split e (by simp)
    · by_cases none : e.bytes = []
      · exact none
      · exact absurd ⟨before, b, middle, e, rest, eq, broke, killed, none⟩ untaken

/-- The caller whose frame broke kills the line in its next step. -/
theorem Scene.kills_next (w : k.Stream) (s : Scene σ) {i : Nat} {e : Happening}
    (now : e ∈ (s.callers i).happening w s.line) (broke : e.Broke) :
    ((s.step k i).callers i).happening w (s.step k i).line = [.kill] := by
  have next : (s.step k i).callers i = ((s.callers i).advance k s.line).1 := if_pos rfl
  rw [next]
  cases caller : s.callers i with
  | waiting c =>
    rw [caller, Progress.happening] at now
    cases wrote : s.line.write k (Lines.frame c) with
    | mk answer after =>
      simp only [wrote, List.mem_singleton] at now
      subst now
      rcases answer with (_ | _ | _ | e) | _ <;> simp only [Happening.Broke] at broke
      simp [Progress.advance, wrote, Progress.happening]
  | broken | taken =>
    rw [caller] at now
    obtain rfl := List.mem_singleton.mp now
    exact broke.elim
  | calling c | found c | leaving | answered answer | closing | closed held =>
    rw [caller] at now
    cases now

/-! ## What the stream carries -/

/-- The calls that were accepted, in the order of their turns. -/
def accepted (history : List Happening) : List Call := history.filterMap fun
  | .turn c (.ok ()) _ => some c
  | .turn _ (.error _) _ | .kill => none

/-- The calls that failed in their turn, in order. -/
def failed (history : List Happening) : List Call := history.filterMap fun
  | .turn c (.error _) _ => some c
  | .turn _ (.ok ()) _ | .kill => none

theorem encode_ne_nil (f : Frame) : f.encode ≠ [] := by
  intro none
  have length := f.length_encode
  rw [none, List.length_nil, Frame.headerSize] at length
  omega

/-- Turns in which nothing is written are turns in which nothing is accepted. -/
theorem accepted_of_silent {history : List Happening} (proper : ∀ e ∈ history, e.Proper)
    (silent : ∀ e ∈ history, e.bytes = []) :
    accepted history = [] ∧ history.flatMap Happening.bytes = [] := by
  refine ⟨?_, List.flatMap_eq_nil_iff.mpr silent⟩
  rw [accepted, List.filterMap_eq_nil_iff]
  intro e mem
  have none := silent e mem
  cases proper e mem with
  | kill | late => rfl
  | written outcome =>
    cases outcome with
    | whole => exact absurd none (encode_ne_nil _)
    | refused | broken => rfl

theorem fits_of_mem_accepted {history : List Happening} (proper : ∀ e ∈ history, e.Proper)
    {c : Call} (mem : c ∈ accepted history) : c.bytes.length ≤ maxParcelSize := by
  obtain ⟨e, happened, eq⟩ := List.mem_filterMap.mp mem
  cases proper e happened with
  | kill | late => cases eq
  | written outcome =>
    cases outcome with
    | whole fits =>
      cases eq
      exact fits
    | refused | broken => cases eq

/-- If nothing comes behind a broken frame, there are the frames of the accepted calls, and behind
them at most a part of the frame of a failed one. -/
theorem bytes_of_nothingFollows {history : List Happening} (proper : ∀ e ∈ history, e.Proper)
    (nothing : NothingFollows history) :
    ∃ tail, history.flatMap Happening.bytes = Lines.bytesOf (accepted history) ++ tail ∧
      (tail = [] ∨ ∃ c ∈ failed history, c.bytes.length ≤ maxParcelSize ∧
        StrictPrefix tail (Lines.frame c).encode) := by
  induction history with
  | nil => exact ⟨[], rfl, .inl rfl⟩
  | cons e history ih =>
    have later : ∀ e ∈ history, e.Proper := fun e mem => proper e (List.mem_cons_of_mem _ mem)
    obtain ⟨tail, bytes, cut⟩ := ih later fun before b after eq =>
      nothing (e :: before) b after (congrArg (e :: ·) eq)
    -- What is written in none of the cases below but the last two is nothing at all.
    have silent (same : e.bytes = []) (unaccepted : accepted (e :: history) = accepted history)
        (failing : failed history ⊆ failed (e :: history)) :
        ∃ tail, (e :: history).flatMap Happening.bytes =
          Lines.bytesOf (accepted (e :: history)) ++ tail ∧
            (tail = [] ∨ ∃ c ∈ failed (e :: history), c.bytes.length ≤ maxParcelSize ∧
              StrictPrefix tail (Lines.frame c).encode) := by
      refine ⟨tail, ?_, cut.imp_right fun ⟨c, mem, rest⟩ => ⟨c, failing mem, rest⟩⟩
      rw [List.flatMap_cons, same, List.nil_append, unaccepted, bytes]
    cases proper e List.mem_cons_self with
    | kill => exact silent rfl rfl (List.Subset.refl _)
    | late c => exact silent rfl rfl (List.subset_cons_self _ _)
    | @written c answer wrote outcome =>
      cases outcome with
      | refused exceeds => exact silent rfl rfl (List.subset_cons_self _ _)
      | whole fits =>
        refine ⟨tail, ?_, cut⟩
        rw [List.flatMap_cons, bytes, ← List.append_assoc]
        rfl
      | broken e fits part =>
        by_cases none : wrote = []
        · exact silent none rfl (List.subset_cons_self _ _)
        · have still := nothing [] _ history rfl none
          obtain ⟨unaccepted, unwritten⟩ := accepted_of_silent later still
          refine ⟨wrote, ?_, .inr ⟨c, List.mem_cons_self, fits, part⟩⟩
          have same : accepted (.turn c (.error (.io e)) wrote :: history) = [] := unaccepted
          rw [List.flatMap_cons, unwritten, same, List.append_nil]
          rfl

namespace Scene

/-- What can be said of the stream after any schedule: what was written in the turns is on it,
nothing was written once the line was killed, and bytes come behind a broken frame exactly if its
caller was overtaken. If it was not, the stream is in order, and a reader finds the accepted calls
and no others. -/
structure Account (w : k.Stream) (s : Scene σ) (schedule : List Nat) : Prop where
  sent : w.sent (s.play k schedule).line.stream =
    w.sent s.line.stream ++ (s.history w schedule).flatMap Happening.bytes
  proper : ∀ e ∈ s.history w schedule, e.Proper
  killed : ∀ before after, s.history w schedule = before ++ .kill :: after →
    ∀ e ∈ after, e.bytes = []
  overtaken : NothingFollows (s.history w schedule) ↔ ¬ Overtaken (s.history w schedule)
  /-- A caller whose frame would break now kills the line in its step after that. -/
  killsNext : ∀ i, ∀ e ∈ ((s.play k schedule).callers i).happening w (s.play k schedule).line,
    e.Broke → (((s.play k schedule).step k i).callers i).happening w
      ((s.play k schedule).step k i).line = [.kill]
  inOrder : ¬ Overtaken (s.history w schedule) →
    ∃ tail, (s.history w schedule).flatMap Happening.bytes =
        Lines.bytesOf (accepted (s.history w schedule)) ++ tail ∧
      (tail = [] ∨ ∃ c ∈ failed (s.history w schedule), StrictPrefix tail (Lines.frame c).encode) ∧
      Lines.Served (accepted (s.history w schedule)) tail

/-- For any callers, however far they have come, and any order of their steps. -/
theorem in_order_unless_overtaken (w : k.Stream) (s : Scene σ) (schedule : List Nat) :
    Account w s schedule where
  sent := s.sent_play w schedule
  proper _ := s.proper_of_mem w
  killed _ _ := s.silent_behind_kill w
  overtaken := s.nothingFollows_iff w schedule
  killsNext _ _ := (s.play k schedule).kills_next w
  inOrder untaken := by
    have proper : ∀ e ∈ s.history w schedule, e.Proper := fun _ => s.proper_of_mem w
    have nothing := (s.nothingFollows_iff w schedule).mpr untaken
    obtain ⟨tail, bytes, cut⟩ := bytes_of_nothingFollows proper nothing
    refine ⟨tail, bytes, cut.imp_right fun ⟨c, mem, _, part⟩ => ⟨c, mem, part⟩, ?_⟩
    refine Lines.served_of_cut (fun c => fits_of_mem_accepted proper) ?_
    rcases cut with rfl | ⟨c, -, fits, part⟩
    · exact .nil
    · exact ⟨Lines.frame c, fits, part⟩

/-- The frame of the first call breaks behind its header, and the second call takes its turn before
the line is killed. The reader finds a call with the code of the first, made of bytes of both. -/
theorem overtaken_tape :
    let tape : Tape := { answers := [.bytes 12, .failed { kind := .timedOut }] }
    let scene : Scene Tape := ⟨{ stream := tape },
      fun i => .calling (if i = 0 then ⟨1, [1, 2, 3, 4]⟩ else ⟨2, [5]⟩)⟩
    let schedule : List Nat := [0, 0, 1, 1, 0, 1, 0, 0]
    let sent := Tape.stream.sent (scene.play Tape.sink schedule).line.stream
    ¬ NothingFollows (scene.history Tape.stream schedule) ∧
      accepted (scene.history Tape.stream schedule) = [⟨2, [5]⟩] ∧
      (Source.frames [.bytes sent]).1 = [⟨1, 1, [1, 0, 0, 0]⟩] := by
  intro tape scene schedule sent
  have history : scene.history Tape.stream schedule =
      [.turn ⟨1, [1, 2, 3, 4]⟩ (.error (.io { kind := .timedOut }))
          [4, 0, 0, 0, 1, 0, 0, 0, 1, 0, 0, 0],
        .turn ⟨2, [5]⟩ (.ok ()) [1, 0, 0, 0, 2, 0, 0, 0, 1, 0, 0, 0, 5], .kill] := by
    cbv
  have bytes : sent = _ := scene.sent_play Tape.stream schedule
  rw [bytes, history]
  refine ⟨fun nothing => ?_, rfl, by cbv⟩
  have empty := nothing [] _ _ rfl (by simp [Happening.Broke]) _ List.mem_cons_self
  cases empty

end Scene

end Line

end StorageBus
