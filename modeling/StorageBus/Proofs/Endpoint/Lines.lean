import StorageBus.Endpoint.Lines
import StorageBus.Proofs.Stream.Reading

/-!
# Runs over lines

What a run of adoptions, calls and closings leaves on the lines, one deed after the other. A line
carries the frames of the calls that were accepted, and behind them at most a part of the frame at
which it broke; from then on nobody finds it any more.

## Main definitions

* `Lines.Deed`, `Lines.Run` — what was done, with the answers, and runs.
* `Line.Carries` — what a line carries after its calls.
* `Lines.Account` — what can be said of the lines after a run.

## Main results

* `Lines.send_cases` — what a call does, by its answer.
* `Lines.Run.recorded` — every line carries the calls of its run.
* `Lines.Run.account` — all of it together.
-/
namespace StorageBus

variable {σ : Type} {k : Sink σ}

/-! ## One line -/

/-- What a line carries behind the bytes it started with: the frames of the accepted calls, and
behind them at most a part of the frame of a failed one, and that only if the line was given up. -/
structure Line.Carries (w : k.Stream) (start : Bytes) (accepted failed : List Call)
    (line : Line σ) : Prop where
  alive_of_held : line.isHeld = true → line.isDead = false
  fits : ∀ c ∈ accepted, c.bytes.length ≤ maxParcelSize
  sent : ∃ tail, w.sent line.stream =
      start ++ (accepted.flatMap fun c => (Lines.frame c).encode) ++ tail ∧
    (line.isHeld = true → tail = []) ∧
    (tail = [] ∨ ∃ c ∈ failed, c.bytes.length ≤ maxParcelSize ∧
      StrictPrefix tail (Lines.frame c).encode)

namespace Line.Carries

variable {w : k.Stream} {start : Bytes} {accepted failed : List Call} {line : Line σ}

theorem fresh (w : k.Stream) (failed : List Call) (stream : σ) :
    Carries w (w.sent stream) [] failed { stream } where
  alive_of_held _ := rfl
  fits := by simp
  sent := ⟨[], by simp, fun _ => rfl, .inl rfl⟩

theorem mono (carries : line.Carries w start accepted failed) (c : Call) :
    line.Carries w start accepted (failed ++ [c]) where
  alive_of_held := carries.alive_of_held
  fits := carries.fits
  sent := by
    obtain ⟨tail, sent, whole, cut⟩ := carries.sent
    refine ⟨tail, sent, whole, cut.imp_right ?_⟩
    rintro ⟨d, mem, part⟩
    exact ⟨d, List.mem_append_left _ mem, part⟩

/-- A held line has taken another frame. -/
theorem accept (carries : line.Carries w start accepted failed) (held : line.isHeld = true)
    {c : Call} (fits : c.bytes.length ≤ maxParcelSize) {stream : σ}
    (sent : w.sent stream = w.sent line.stream ++ (Lines.frame c).encode) :
    Carries w start (accepted ++ [c]) failed { line with stream } where
  alive_of_held := carries.alive_of_held
  fits d mem := by
    rcases List.mem_append.mp mem with mem | mem
    · exact carries.fits d mem
    · rw [List.mem_singleton.mp mem]
      exact fits
  sent := by
    obtain ⟨tail, before, whole, -⟩ := carries.sent
    refine ⟨[], ?_, fun _ => rfl, .inl rfl⟩
    rw [sent, before, whole held]
    simp

/-- A held line has broken within a frame. -/
theorem fail (carries : line.Carries w start accepted failed) (held : line.isHeld = true)
    {c : Call} (fits : c.bytes.length ≤ maxParcelSize) {stream : σ} {part : Bytes}
    (cut : StrictPrefix part (Lines.frame c).encode)
    (sent : w.sent stream = w.sent line.stream ++ part) :
    Carries w start accepted (failed ++ [c]) { stream, isHeld := false, isDead := true } where
  alive_of_held := by simp
  fits := carries.fits
  sent := by
    obtain ⟨tail, before, whole, -⟩ := carries.sent
    refine ⟨part, ?_, by simp, .inr ⟨c, by simp, fits, cut⟩⟩
    rw [sent, before, whole held]
    simp

theorem giveUp (carries : line.Carries w start accepted failed) :
    line.giveUp.kill.Carries w start accepted failed where
  alive_of_held := by simp [Line.giveUp, kill]
  fits := carries.fits
  sent := by
    obtain ⟨tail, sent, -, cut⟩ := carries.sent
    exact ⟨tail, sent, by simp [Line.giveUp, kill], cut⟩

end Line.Carries

theorem Line.write_cases (w : k.Stream) {line : Line σ} (alive : line.isDead = false) (f : Frame) :
    ∃ bytes stream, line.write k f = ((line.write k f).1, { line with stream }) ∧
      f.Outcome (line.write k f).1 bytes ∧ w.sent stream = w.sent line.stream ++ bytes := by
  obtain ⟨bytes, outcome, sent⟩ := w.write_outcome f line.stream
  have eq : line.write k f =
      ((f.write k line.stream).1, { line with stream := (f.write k line.stream).2 }) := by
    rw [write, if_neg (by simp [alive])]
  refine ⟨bytes, (f.write k line.stream).2, ?_, ?_, sent⟩
  · rw [eq]
  · rw [eq]
    exact outcome

namespace Lines

/-! ## One deed -/

theorem find?_of_held? {ls : Lines σ} {h : Handle} {line : Line σ} (held : ls.held? h = some line) :
    Table.find? h ls.lines = some line ∧ line.isHeld = true := by
  rw [held?, Option.filter_eq_some_iff] at held
  exact held

theorem held?_of_find? {ls : Lines σ} {h : Handle} {line : Line σ}
    (found : Table.find? h ls.lines = some line) :
    ls.held? h = if line.isHeld then some line else none := by
  rw [held?, found, Option.filter_some]

theorem find?_update (ls : Lines σ) (h g : Handle) (f : Line σ → Line σ) :
    Table.find? g (ls.update h f).lines =
      if g = h then (Table.find? h ls.lines).map f else Table.find? g ls.lines := by
  split
  · next same =>
    subst same
    exact Table.find?_update_self _ _ _
  · next other => exact Table.find?_update_of_ne other _ _

theorem find?_update_self {ls : Lines σ} {h : Handle} {line : Line σ}
    (found : Table.find? h ls.lines = some line) (f : Line σ → Line σ) :
    Table.find? h (ls.update h f).lines = some (f line) := by
  rw [find?_update, if_pos rfl, found, Option.map_some]

theorem find?_adopt {ls : Lines σ} {h : Handle} (fresh : Table.find? h ls.lines = none)
    (stream : σ) (g : Handle) :
    Table.find? g (ls.adopt h stream).lines =
      if g = h then some { stream } else Table.find? g ls.lines := by
  rw [adopt, Table.find?_add]
  split
  · next same =>
    subst same
    rw [fresh, if_pos rfl]
    rfl
  · next other => rw [if_neg (Ne.symm other), Option.or_none]

/-- What a call does to a line that is held and in order, by its answer. -/
inductive Sending (w : k.Stream) (ls : Lines σ) (h : Handle) (c : Call) (line : Line σ) :
    Except Failure Unit × Lines σ → Prop
  | accepted (fits : c.bytes.length ≤ maxParcelSize) (stream : σ)
    (sent : w.sent stream = w.sent line.stream ++ (frame c).encode) :
    Sending w ls h c line (.ok (), ls.update h fun _ => { line with stream })
  | refused (exceeds : maxParcelSize < c.bytes.length) :
    Sending w ls h c line (.error (.tooLarge c.bytes.length maxParcelSize), ls)
  | broken (fits : c.bytes.length ≤ maxParcelSize) (stream : σ) {part : Bytes}
    (cut : StrictPrefix part (frame c).encode)
    (sent : w.sent stream = w.sent line.stream ++ part) :
    Sending w ls h c line
      (.error .deadObject, ls.update h fun _ => { stream, isHeld := false, isDead := true })

theorem send_of_none {ls : Lines σ} {h : Handle} (absent : ls.held? h = none) (c : Call) :
    ls.send k h c = (.error .deadObject, ls) := by
  rw [send, absent]

theorem send_of_over {ls : Lines σ} {h : Handle} {line : Line σ} (held : ls.held? h = some line)
    (alive : line.isDead = false) {c : Call} (exceeds : maxParcelSize < c.bytes.length) :
    ls.send k h c = (.error (.tooLarge c.bytes.length maxParcelSize), ls) := by
  have found := (find?_of_held? held).1
  have same : ls.update h (fun _ => line) = ls := by
    rw [update, Table.update_eq_self found rfl]
  have wrote : line.write k (frame c) =
      (.error (.tooLarge c.bytes.length maxParcelSize), line) := by
    rw [Line.write, if_neg (by simp [alive]), Frame.write_of_over exceeds]
    rfl
  simp only [send, held, wrote, same]

theorem send_cases (w : k.Stream) {ls : Lines σ} {h : Handle} {line : Line σ}
    (held : ls.held? h = some line) (alive : line.isDead = false) (c : Call) :
    Sending w ls h c line (ls.send k h c) := by
  by_cases exceeds : maxParcelSize < c.bytes.length
  · rw [send_of_over held alive exceeds]
    exact .refused exceeds
  · have isHeld := (find?_of_held? held).2
    obtain ⟨bytes, stream, eq, outcome, sent⟩ := line.write_cases w alive (frame c)
    simp only [send, held]
    rw [eq]
    generalize (line.write k (frame c)).1 = answer at outcome
    cases outcome with
    | whole fits => exact .accepted fits stream sent
    | refused large => exact absurd large exceeds
    | broken e fits cut => exact .broken fits stream cut sent

/-- On a reliable stream a call that fits is accepted. -/
theorem send_of_reliable {w : k.Stream} (reliable : w.Reliable) {ls : Lines σ} {h : Handle}
    {line : Line σ} (held : ls.held? h = some line) (alive : line.isDead = false) {c : Call}
    (fits : c.bytes.length ≤ maxParcelSize) :
    ∃ stream, ls.send k h c = (.ok (), ls.update h fun _ => { line with stream }) ∧
      w.sent stream = w.sent line.stream ++ (frame c).encode := by
  have written := reliable.write_eq (frame c) line.stream
  rw [if_pos (show (frame c).body.length ≤ maxParcelSize from fits)] at written
  obtain ⟨ok, sent⟩ := written
  refine ⟨_, ?_, sent⟩
  have wrote : line.write k (frame c) =
      (.ok (), { line with stream := ((frame c).write k line.stream).2 }) := by
    rw [Line.write, if_neg (by simp [alive])]
    simp only [ok]
  simp only [send, held, wrote]

/-! ## Runs -/

/-- What was done with the lines, and the answer. -/
inductive Deed (σ : Type) where
  | adopted (h : Handle) (stream : σ)
  | called (h : Handle) (c : Call) (answer : Except Failure Unit)
  | closed (h : Handle) (held : Bool)

/-- Deeds that lead from some lines to others, the earliest first. The handle of an adopted line is
new: there has been no line under it. -/
inductive Run (k : Sink σ) (before : Lines σ) : List (Deed σ) → Lines σ → Prop
  | start : Run k before [] before
  | adopt {done : List (Deed σ)} {ls : Lines σ} (run : Run k before done ls) {h : Handle}
    (fresh : Table.find? h ls.lines = none) (stream : σ) :
    Run k before (done ++ [.adopted h stream]) (ls.adopt h stream)
  | call {done : List (Deed σ)} {ls : Lines σ} (run : Run k before done ls) (h : Handle)
    (c : Call) :
    Run k before (done ++ [.called h c (ls.send k h c).1]) (ls.send k h c).2
  | close {done : List (Deed σ)} {ls : Lines σ} (run : Run k before done ls) (h : Handle) :
    Run k before (done ++ [.closed h (ls.close h).1]) (ls.close h).2

/-- The call, if it was made under the handle and accepted. -/
def Deed.accepted? (h : Handle) : Deed σ → Option Call
  | .called g c (.ok ()) => if g = h then some c else none
  | .called _ _ (.error _) | .adopted _ _ | .closed _ _ => none

/-- The call, if it was made under the handle and nobody was there to take all of it. -/
def Deed.failed? (h : Handle) : Deed σ → Option Call
  | .called g c (.error .deadObject) => if g = h then some c else none
  | .called _ _ _ | .adopted _ _ | .closed _ _ => none

theorem Deed.accepted?_of_ne {g h : Handle} (other : g ≠ h) (c : Call)
    (answer : Except Failure Unit) : (Deed.called h c answer : Deed σ).accepted? g = none := by
  unfold accepted?
  split
  · next eq =>
    cases eq
    rw [if_neg (Ne.symm other)]
  all_goals rfl

theorem Deed.failed?_of_ne {g h : Handle} (other : g ≠ h) (c : Call)
    (answer : Except Failure Unit) : (Deed.called h c answer : Deed σ).failed? g = none := by
  unfold failed?
  split
  · next eq =>
    cases eq
    rw [if_neg (Ne.symm other)]
  all_goals rfl

/-- The calls under the handle that were accepted, in order. -/
def accepted (h : Handle) (done : List (Deed σ)) : List Call := done.filterMap (·.accepted? h)

/-- The calls under the handle that failed because nobody was there, in order. -/
def failed (h : Handle) (done : List (Deed σ)) : List Call := done.filterMap (·.failed? h)

/-- A run without lines at its start leaves no line under a handle, or one that carries the calls
of the run. -/
inductive Recorded (w : k.Stream) (done : List (Deed σ)) (ls : Lines σ) (h : Handle) : Prop
  | absent (none : Table.find? h ls.lines = none) (never : ∀ stream, .adopted h stream ∉ done)
    (unheard : accepted h done = [])
  | present {s : σ} {line : Line σ} (found : Table.find? h ls.lines = some line)
    (once : ∀ stream, .adopted h stream ∈ done → stream = s)
    (carries : line.Carries w (w.sent s) (accepted h done) (failed h done))

namespace Recorded

variable {w : k.Stream} {done : List (Deed σ)} {ls : Lines σ}

/-- A deed that is not about the handle. -/
theorem other {h : Handle} (recorded : Recorded w done ls h) {deed : Deed σ} {after : Lines σ}
    (same : Table.find? h after.lines = Table.find? h ls.lines)
    (unadopted : ∀ stream, deed ≠ .adopted h stream) (unaccepted : deed.accepted? h = none)
    (unfailed : deed.failed? h = none) : Recorded w (done ++ [deed]) after h := by
  have acc : accepted h (done ++ [deed]) = accepted h done := by simp [accepted, unaccepted]
  have fail : failed h (done ++ [deed]) = failed h done := by simp [failed, unfailed]
  have old {s : σ} (mem : .adopted h s ∈ done ++ [deed]) : .adopted h s ∈ done := by
    rcases List.mem_append.mp mem with mem | mem
    · exact mem
    · exact absurd (List.mem_singleton.mp mem).symm (unadopted s)
  cases recorded with
  | absent none never unheard =>
    exact .absent (same.trans none) (fun s mem => never s (old mem)) (acc.trans unheard)
  | @present s line found once carries =>
    refine .present (same.trans found) (fun s mem => once s (old mem)) ?_
    rw [acc, fail]
    exact carries

theorem adopt {h : Handle} (recorded : Recorded w done ls h)
    (fresh : Table.find? h ls.lines = none) (stream : σ) :
    Recorded w (done ++ [.adopted h stream]) (ls.adopt h stream) h := by
  cases recorded with
  | absent none never unheard =>
    refine .present (s := stream) (by rw [find?_adopt fresh, if_pos rfl]) ?_ ?_
    · intro s mem
      rcases List.mem_append.mp mem with mem | mem
      · exact absurd mem (never s)
      · cases List.mem_singleton.mp mem
        rfl
    · have none : accepted h (done ++ [.adopted h stream]) = [] := by
        simpa [accepted, Deed.accepted?] using unheard
      rw [none]
      exact .fresh w _ stream
  | @present s line found once carries => cases fresh.symm.trans found

/-- A call that found no line to write to. -/
theorem unanswered {h : Handle} (recorded : Recorded w done ls h) (c : Call) :
    Recorded w (done ++ [.called h c (.error .deadObject)]) ls h := by
  have acc : accepted h (done ++ [.called h c (.error .deadObject)]) = accepted h done := by
    simp [accepted, Deed.accepted?]
  have fail : failed h (done ++ [.called h c (.error .deadObject)]) = failed h done ++ [c] := by
    simp [failed, Deed.failed?]
  cases recorded with
  | absent none never unheard => exact .absent none (by simpa using never) (acc.trans unheard)
  | @present s line found once carries =>
    refine .present (s := s) found (by simpa using once) ?_
    rw [acc, fail]
    exact carries.mono c

theorem call {h : Handle} (recorded : Recorded w done ls h) (c : Call) :
    Recorded w (done ++ [.called h c (ls.send k h c).1]) (ls.send k h c).2 h := by
  by_cases held : ls.held? h = none
  · rw [send_of_none held]
    exact recorded.unanswered c
  · obtain ⟨line, held⟩ := Option.ne_none_iff_exists'.mp held
    obtain ⟨found, isHeld⟩ := find?_of_held? held
    cases recorded with
    | absent none never unheard => cases none.symm.trans found
    | @present s old found' once carries =>
      cases found.symm.trans found'
      have sending := send_cases w held (carries.alive_of_held isHeld) c
      generalize ls.send k h c = result at sending
      cases sending with
      | accepted fits stream sent =>
        refine .present (s := s) (find?_update_self found _) (by simpa using once) ?_
        simpa [accepted, failed, Deed.accepted?, Deed.failed?] using
          carries.accept isHeld fits sent
      | refused exceeds =>
        refine .present (s := s) found (by simpa using once) ?_
        simpa [accepted, failed, Deed.accepted?, Deed.failed?] using carries
      | broken fits stream cut sent =>
        refine .present (s := s) (find?_update_self found _) (by simpa using once) ?_
        simpa [accepted, failed, Deed.accepted?, Deed.failed?] using
          carries.fail isHeld fits cut sent

theorem close {h : Handle} (recorded : Recorded w done ls h) :
    Recorded w (done ++ [.closed h (ls.close h).1]) (ls.close h).2 h := by
  by_cases held : (ls.held? h).isSome
  · simp only [Lines.close, if_pos held]
    cases recorded with
    | absent none never unheard => simp [held?, none] at held
    | @present s line found once carries =>
      refine .present (s := s) (find?_update_self found _) (by simpa using once) ?_
      simpa [accepted, failed, Deed.accepted?, Deed.failed?] using carries.giveUp
  · simp only [Lines.close, if_neg held]
    cases recorded with
    | absent none never unheard =>
      exact .absent none (by simpa using never) (by simpa [accepted, Deed.accepted?] using unheard)
    | @present s line found once carries =>
      refine .present (s := s) found (by simpa using once) ?_
      simpa [accepted, failed, Deed.accepted?, Deed.failed?] using carries

end Recorded

theorem find?_send_of_ne {g h : Handle} (other : g ≠ h) (c : Call) (ls : Lines σ) :
    Table.find? g (ls.send k h c).2.lines = Table.find? g ls.lines := by
  rw [send]
  split
  · rfl
  · split <;> rw [find?_update, if_neg other]

theorem find?_close_of_ne {g h : Handle} (other : g ≠ h) (ls : Lines σ) :
    Table.find? g (ls.close h).2.lines = Table.find? g ls.lines := by
  rw [close]
  split
  · rw [find?_update, if_neg other]
  · rfl

namespace Run

theorem recorded (w : k.Stream) {done : List (Deed σ)} {ls : Lines σ} (run : Run k {} done ls)
    (g : Handle) : Recorded w done ls g := by
  induction run with
  | start => exact .absent rfl (by simp) rfl
  | @adopt done ls run h fresh stream ih =>
    by_cases same : g = h
    · subst same
      exact ih.adopt fresh stream
    · refine ih.other ?_ ?_ rfl rfl
      · rw [find?_adopt fresh, if_neg same]
      · rintro s ⟨⟩
        exact same rfl
  | call run h c ih =>
    by_cases same : g = h
    · subst same
      exact ih.call c
    · exact ih.other (find?_send_of_ne same c _) (by simp) (Deed.accepted?_of_ne same c _)
        (Deed.failed?_of_ne same c _)
  | close run h ih =>
    by_cases same : g = h
    · subst same
      exact ih.close
    · exact ih.other (find?_close_of_ne same _) (by simp) rfl rfl

/-- Where there was a line, there is one after every run, so its handle is not minted again. -/
theorem unadopted {before ls : Lines σ} {later : List (Deed σ)} {h : Handle}
    (run : Run k before later ls) (known : Table.find? h before.lines ≠ none) :
    Table.find? h ls.lines ≠ none ∧ ∀ stream, .adopted h stream ∉ later := by
  induction run with
  | start => exact ⟨known, by simp⟩
  | @adopt later ls run g fresh stream ih =>
    obtain ⟨known, unadopted⟩ := ih
    have other : h ≠ g := by
      rintro rfl
      exact known fresh
    refine ⟨by rwa [find?_adopt fresh, if_neg other], fun s mem => ?_⟩
    rcases List.mem_append.mp mem with mem | mem
    · exact unadopted s mem
    · cases List.mem_singleton.mp mem
      exact other rfl
  | @call later ls run g c ih =>
    refine ⟨?_, by simpa using ih.2⟩
    by_cases same : h = g
    · subst same
      rw [send]
      split
      · exact ih.1
      · split <;> simpa [find?_update] using ih.1
    · rw [find?_send_of_ne same]
      exact ih.1
  | @close later ls run g ih =>
    refine ⟨?_, by simpa using ih.2⟩
    by_cases same : h = g
    · subst same
      rw [Lines.close]
      split
      · simpa [find?_update] using ih.1
      · exact ih.1
    · rw [find?_close_of_ne same]
      exact ih.1

/-- As long as a handle without a held line is not minted, nothing happens under it: its calls fail
and nothing is written. -/
theorem unheld {before ls : Lines σ} {later : List (Deed σ)} {h : Handle}
    (run : Run k before later ls) (absent : before.held? h = none)
    (unadopted : ∀ stream, .adopted h stream ∉ later) :
    Table.find? h ls.lines = Table.find? h before.lines ∧
      ∀ c answer, .called h c answer ∈ later → answer = .error .deadObject := by
  induction run with
  | start => exact ⟨rfl, by simp⟩
  | @adopt later ls run g fresh stream ih =>
    obtain ⟨same, failed⟩ := ih fun s mem => unadopted s (List.mem_append_left _ mem)
    have other : h ≠ g := by
      rintro rfl
      exact unadopted stream (by simp)
    exact ⟨by rw [find?_adopt fresh, if_neg other, same], by simpa using failed⟩
  | @call later ls run g c ih =>
    obtain ⟨same, failed⟩ := ih fun s mem => unadopted s (List.mem_append_left _ mem)
    by_cases this : h = g
    · subst this
      have still : ls.held? h = none := by rwa [held?, same, ← held?]
      rw [send_of_none still]
      refine ⟨same, fun d answer mem => ?_⟩
      rcases List.mem_append.mp mem with mem | mem
      · exact failed d answer mem
      · cases List.mem_singleton.mp mem
        rfl
    · refine ⟨(find?_send_of_ne this c ls).trans same, fun d answer mem => ?_⟩
      rcases List.mem_append.mp mem with mem | mem
      · exact failed d answer mem
      · cases List.mem_singleton.mp mem
        exact absurd rfl this
  | @close later ls run g ih =>
    obtain ⟨same, failed⟩ := ih fun s mem => unadopted s (List.mem_append_left _ mem)
    refine ⟨?_, by simpa using failed⟩
    by_cases this : h = g
    · subst this
      have still : ls.held? h = none := by rwa [held?, same, ← held?]
      rw [Lines.close, if_neg (by simp [still])]
      exact same
    · rw [find?_close_of_ne this]
      exact same

end Run

/-! ## After a run -/

/-- The frames of calls, one after the other. -/
def bytesOf (calls : List Call) : Bytes := calls.flatMap fun c => (frame c).encode

/-- What a reader makes of the bytes that are behind those a line started with. -/
def Served (calls : List Call) (tail : Bytes) : Prop :=
  ∀ (src : Source), src.Gives (bytesOf calls ++ tail) →
    ∀ (τ : Type) (handOn : Frame → τ → τ) (t : τ),
      Ended tail calls.length (src.serve handOn t).1 ∧
        (src.serve handOn t).2 = calls.foldl (fun t c => handOn (frame c) t) t

theorem served_of_cut {calls : List Call} {tail : Bytes}
    (fits : ∀ c ∈ calls, c.bytes.length ≤ maxParcelSize) (leftover : Source.Gives.Leftover tail) :
    Served calls tail := by
  intro src gives τ handOn t
  have frames : bytesOf calls = (calls.map frame).flatMap Frame.encode := by
    rw [bytesOf, List.flatMap_map]
  rw [frames] at gives
  have small : ∀ f ∈ calls.map frame, f.body.length ≤ maxParcelSize := by
    intro f mem
    obtain ⟨c, called, rfl⟩ := List.mem_map.mp mem
    exact fits c called
  obtain ⟨ended, handed⟩ := Source.Gives.serve_eq handOn t small leftover gives
  rw [List.length_map] at ended
  rw [List.foldl_map] at handed
  exact ⟨ended, handed⟩

/-- What can be said of lines after a run that started without any. -/
structure Account (w : k.Stream) (done : List (Deed σ)) (ls : Lines σ) : Prop where
  answers : ∀ h c, (ls.send k h c).1 = .ok () ∨
    (ls.send k h c).1 = .error (.tooLarge c.bytes.length maxParcelSize) ∨
    (ls.send k h c).1 = .error .deadObject
  /-- An accepted call leaves the line held. -/
  ok : ∀ h c, (ls.send k h c).1 = .ok () → ((ls.send k h c).2.held? h).isSome
  /-- A refused call leaves everything as it is, the held line included. -/
  tooLarge : ∀ h c size limit, (ls.send k h c).1 = .error (.tooLarge size limit) →
    (ls.send k h c).2 = ls ∧ (ls.held? h).isSome
  /-- A failed call leaves no held line. As long as the handle is not minted nothing is written
  under it any more, and its calls fail. -/
  deadObject : ∀ h c, (ls.send k h c).1 = .error .deadObject → (ls.send k h c).2.held? h = none ∧
    ∀ later after, Run k (ls.send k h c).2 later after → (∀ s, .adopted h s ∉ later) →
      Table.find? h after.lines = Table.find? h (ls.send k h c).2.lines ∧
        ∀ d answer, .called h d answer ∈ later → answer = .error .deadObject
  /-- A handle that was minted is not minted again. -/
  once : ∀ h s, .adopted h s ∈ done → ∀ later after, Run k ls later after →
    ∀ t, .adopted h t ∉ later
  /-- What is done under a handle is nothing to the line of another. -/
  others : ∀ g h, g ≠ h →
    (∀ s, Table.find? h ls.lines = none →
      Table.find? g (ls.adopt h s).lines = Table.find? g ls.lines) ∧
    (∀ c, Table.find? g (ls.send k h c).2.lines = Table.find? g ls.lines) ∧
    Table.find? g (ls.close h).2.lines = Table.find? g ls.lines
  /-- Behind the bytes that a line started with there are the frames of its accepted calls, and
  then at most a part of a failed one, which is what a reader makes of it. -/
  carried : ∀ h s, .adopted h s ∈ done → ∃ line tail, Table.find? h ls.lines = some line ∧
    w.sent line.stream = w.sent s ++ (bytesOf (Lines.accepted h done) ++ tail) ∧
    (tail = [] ∨ ∃ c ∈ Lines.failed h done, StrictPrefix tail (frame c).encode) ∧
    Served (Lines.accepted h done) tail

namespace Run

theorem cases_of_held {w : k.Stream} {done : List (Deed σ)} {ls : Lines σ} (run : Run k {} done ls)
    (h : Handle) (c : Call) : ls.held? h = none ∧ ls.send k h c = (.error .deadObject, ls) ∨
      ∃ line, ls.held? h = some line ∧ Sending w ls h c line (ls.send k h c) := by
  cases held : ls.held? h with
  | none => exact .inl ⟨rfl, send_of_none held c⟩
  | some line =>
    obtain ⟨found, isHeld⟩ := find?_of_held? held
    cases run.recorded w h with
    | absent none => cases none.symm.trans found
    | present found' once carries =>
      cases found.symm.trans found'
      exact .inr ⟨line, rfl, send_cases w held (carries.alive_of_held isHeld) c⟩

theorem carried {w : k.Stream} {done : List (Deed σ)} {ls : Lines σ} (run : Run k {} done ls)
    {h : Handle} {s : σ} (adopted : .adopted h s ∈ done) :
    ∃ line tail, Table.find? h ls.lines = some line ∧
      w.sent line.stream = w.sent s ++ (bytesOf (accepted h done) ++ tail) ∧
      (tail = [] ∨ ∃ c ∈ failed h done, StrictPrefix tail (frame c).encode) ∧
      Served (accepted h done) tail := by
  cases run.recorded w h with
  | absent _ never => exact absurd adopted (never s)
  | @present s' line found once carries =>
    obtain rfl := once s adopted
    obtain ⟨tail, sent, -, cut⟩ := carries.sent
    refine ⟨line, tail, found, by rw [sent, bytesOf, List.append_assoc], ?_, ?_⟩
    · exact cut.imp_right fun ⟨c, mem, _, part⟩ => ⟨c, mem, part⟩
    · refine served_of_cut carries.fits ?_
      rcases cut with rfl | ⟨c, -, fits, part⟩
      · exact .nil
      · exact ⟨frame c, fits, part⟩

theorem account (w : k.Stream) {done : List (Deed σ)} {ls : Lines σ} (run : Run k {} done ls) :
    Account w done ls where
  answers h c := by
    rcases run.cases_of_held (w := w) h c with ⟨-, eq⟩ | ⟨line, -, sending⟩
    · simp [eq]
    · generalize ls.send k h c = result at sending
      cases sending <;> simp
  ok h c ok := by
    rcases run.cases_of_held (w := w) h c with ⟨-, eq⟩ | ⟨line, held, sending⟩
    · simp [eq] at ok
    · obtain ⟨found, isHeld⟩ := find?_of_held? held
      generalize ls.send k h c = result at sending ok
      cases sending with
      | accepted => simp [held?, find?_update, found, isHeld]
      | refused | broken => cases ok
  tooLarge h c size limit tooLarge := by
    rcases run.cases_of_held (w := w) h c with ⟨-, eq⟩ | ⟨line, held, sending⟩
    · simp [eq] at tooLarge
    · generalize ls.send k h c = result at sending tooLarge
      cases sending with
      | refused => simp [held]
      | accepted | broken => cases tooLarge
  deadObject h c dead := by
    have absent : (ls.send k h c).2.held? h = none := by
      rcases run.cases_of_held (w := w) h c with ⟨none, eq⟩ | ⟨line, held, sending⟩
      · simp [eq, none]
      · have found := (find?_of_held? held).1
        generalize ls.send k h c = result at sending dead
        cases sending with
        | broken => simp [held?, find?_update, found]
        | accepted | refused => cases dead
    exact ⟨absent, fun later after run' unadopted => run'.unheld absent unadopted⟩
  once h s adopted later after run' := by
    obtain ⟨line, -, found, -⟩ := run.carried (w := w) adopted
    exact (run'.unadopted (by simp [found])).2
  others g h other := by
    refine ⟨fun s fresh => ?_, fun c => find?_send_of_ne other c ls, find?_close_of_ne other ls⟩
    rw [find?_adopt fresh, if_neg other]
  carried h s := run.carried

/-- A line that takes a frame in pieces, and of the next one no more than the header. -/
theorem account_tape : ∃ done ls, Run Tape.sink {} done ls ∧
    accepted ⟨1, none⟩ done = [⟨1, [7]⟩] ∧ failed ⟨1, none⟩ done = [⟨2, [8, 9]⟩] ∧
    Account Tape.stream done ls := by
  let h : Handle := ⟨1, none⟩
  let line (tape : Tape) : Lines Tape := ⟨[(h, { stream := tape })]⟩
  let tape : Tape := { answers :=
    [.bytes 5, .interrupted, .bytes 7, .bytes 1, .bytes 12, .failed { kind := .timedOut }] }
  let later : Tape :=
    ⟨[.bytes 12, .failed { kind := .timedOut }], [1, 0, 0, 0, 1, 0, 0, 0, 1, 0, 0, 0, 7]⟩
  have first : (line tape).send Tape.sink h ⟨1, [7]⟩ = (.ok (), line later) := by
    cbv
  have second : ((line later).send Tape.sink h ⟨2, [8, 9]⟩).1 = .error .deadObject := by
    cbv
  have adopted : Run Tape.sink {} [.adopted h tape] (line tape) := Run.start.adopt rfl tape
  have called := adopted.call h ⟨1, [7]⟩
  rw [first] at called
  have run := called.call h ⟨2, [8, 9]⟩
  rw [second] at run
  exact ⟨_, _, run, rfl, rfl, run.account Tape.stream⟩

end Run

end Lines

end StorageBus
