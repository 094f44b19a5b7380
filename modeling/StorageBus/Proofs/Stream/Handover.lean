import StorageBus.Frame.Channel
import StorageBus.Proofs.Stream.Writing

/-!
# What a sink is asked for a frame

A sink is offered the bytes of a frame from the front, what it left once more with what comes next
on its turn, until it has taken all of them or a write fails. Only then is it asked to flush. A
write in which it takes nothing is a failure as well, and an interrupted one is none.

## Main definitions

* `Sink.Deed`, `Sink.logged` — what a sink is asked with its answers, and the sink under watch.
* `Sink.Handover` — bytes handed to a sink, write after write.
* `Frame.Settled` — what a log says about the answer to a frame.

## Main results

* `Sink.writeAll_handover`, `Frame.write_course` — every writing is such a handover, whatever the
  sink does.
* `Frame.write_accounted` — the answer to a frame by what the sink took and what it answered.
-/
namespace StorageBus

variable {σ : Type}

/-- Why a write ends the writing, if it does. -/
def Took.failure? : Took → Option IoError
  | .bytes 0 => some .shortWrite
  | .bytes (_ + 1) | .interrupted => none
  | .failed e => some e

namespace Sink

/-! ## A sink under watch -/

/-- What a sink is asked, with its answer. -/
inductive Deed where
  | wrote (offer : Bytes) (answer : Took)
  | flushed (answer : Option IoError)
deriving DecidableEq, Repr

def Deed.taken : Deed → Bytes
  | wrote offer (.bytes n) => offer.take n
  | _ => []

/-- All bytes that were taken, in order. -/
def taken (log : List Deed) : Bytes := log.flatMap Deed.taken

@[simp] theorem taken_nil : taken [] = [] := rfl

@[simp] theorem taken_cons (d : Deed) (log : List Deed) : taken (d :: log) = d.taken ++ taken log :=
  rfl

@[simp] theorem taken_append (log more : List Deed) :
    taken (log ++ more) = taken log ++ taken more := by
  simp [taken]

/-- The sink with a log of what it is asked, the earliest first. -/
def logged (k : Sink σ) : Sink (List Deed × σ) where
  write bs := fun (log, s) =>
    let (answer, t) := k.write bs s
    (answer, log ++ [.wrote bs answer], t)
  flush := fun (log, s) =>
    let (answer, t) := k.flush s
    (answer, log ++ [.flushed answer], t)
  patience := fun (_, s) => k.patience s
  patience_lt := by
    rintro bs ⟨log, s⟩ ⟨more, t⟩ h
    simp only [Prod.mk.injEq] at h
    exact k.patience_lt (Prod.ext h.1 h.2.2)

theorem logged_write (k : Sink σ) {bs : Bytes} {s t : σ} {answer : Took}
    (wrote : k.write bs s = (answer, t)) (log : List Deed) :
    k.logged.write bs (log, s) = (answer, log ++ [.wrote bs answer], t) := by
  simp [logged, wrote]

theorem logged_flush (k : Sink σ) (log : List Deed) (s : σ) : k.logged.flush (log, s) =
    ((k.flush s).1, log ++ [.flushed (k.flush s).1], (k.flush s).2) := rfl

/-! ## One write of many -/

section

variable (k : Sink σ) {bs : Bytes} {s t : σ}

theorem writeAll_nil (s : σ) : k.writeAll [] s = (.ok (), s) := by
  rw [writeAll, if_pos rfl]

theorem writeAll_of_bytes {n : Nat} (ne : bs ≠ []) (wrote : k.write bs s = (.bytes (n + 1), t)) :
    k.writeAll bs s = k.writeAll (bs.drop (n + 1)) t := by
  rw [writeAll, if_neg ne]
  split <;> simp_all

theorem writeAll_of_interrupted (ne : bs ≠ []) (wrote : k.write bs s = (.interrupted, t)) :
    k.writeAll bs s = k.writeAll bs t := by
  rw [writeAll, if_neg ne]
  split <;> simp_all

theorem writeAll_of_failure {answer : Took} {e : IoError} (ne : bs ≠ [])
    (wrote : k.write bs s = (answer, t)) (fails : answer.failure? = some e) :
    k.writeAll bs s = (.error e, t) := by
  rw [writeAll, if_neg ne]
  split
  · next u wrote' =>
    cases wrote'.symm.trans wrote
    cases fails
    rfl
  · next n u wrote' =>
    cases wrote'.symm.trans wrote
    cases fails
  · next u wrote' =>
    cases wrote'.symm.trans wrote
    cases fails
  · next e' u wrote' =>
    cases wrote'.symm.trans wrote
    cases fails
    rfl

end

/-! ## Handovers -/

/-- How a sink takes bytes: it is offered some from the front of those that are left, and it takes
some of the offer, or the writing ends with what made the write fail. -/
inductive Handover : Bytes → List Deed → Except IoError Unit → Prop
  | done : Handover [] [] (.ok ())
  | took {offer rest : Bytes} {n : Nat} {log : List Deed} {result : Except IoError Unit}
    (ne : offer ≠ []) (more : Handover (offer.drop (n + 1) ++ rest) log result) :
    Handover (offer ++ rest) (.wrote offer (.bytes (n + 1)) :: log) result
  | interrupted {offer rest : Bytes} {log : List Deed} {result : Except IoError Unit}
    (ne : offer ≠ []) (more : Handover (offer ++ rest) log result) :
    Handover (offer ++ rest) (.wrote offer .interrupted :: log) result
  | failed {offer rest : Bytes} {answer : Took} {e : IoError} (ne : offer ≠ [])
    (fails : answer.failure? = some e) :
    Handover (offer ++ rest) [.wrote offer answer] (.error e)

namespace Handover

variable {offer : Bytes} {log : List Deed} {result : Except IoError Unit}

/-! A sink may be offered all that is left at once. -/

theorem took_all {n : Nat} (ne : offer ≠ []) (more : Handover (offer.drop (n + 1)) log result) :
    Handover offer (.wrote offer (.bytes (n + 1)) :: log) result := by
  rw [← List.append_nil (offer.drop (n + 1))] at more
  simpa using Handover.took ne more

theorem interrupted_all (ne : offer ≠ []) (more : Handover offer log result) :
    Handover offer (.wrote offer .interrupted :: log) result := by
  rw [← List.append_nil offer] at more
  simpa using Handover.interrupted ne more

theorem failed_all (answer : Took) {e : IoError} (ne : offer ≠ [])
    (fails : answer.failure? = some e) : Handover offer [.wrote offer answer] (.error e) := by
  have failed : Handover (offer ++ []) [.wrote offer answer] (.error e) := .failed ne fails
  rwa [List.append_nil] at failed

end Handover

theorem writeAll_handover (k : Sink σ) (bs : Bytes) (s : σ) :
    ∃ log result t, Handover bs log result ∧ k.writeAll bs s = (result, t) ∧
      ∀ before, k.logged.writeAll bs (before, s) = (result, before ++ log, t) := by
  fun_induction k.writeAll bs s with
  | case1 s =>
    refine ⟨[], .ok (), s, .done, rfl, fun before => ?_⟩
    rw [writeAll_nil, List.append_nil]
  | case2 bs s ne t wrote =>
    refine ⟨_, _, t, .failed_all (.bytes 0) ne rfl, rfl, fun before => ?_⟩
    exact writeAll_of_failure _ ne (k.logged_write wrote before) rfl
  | case3 bs s ne n t wrote ih =>
    obtain ⟨log, result, u, handed, written, watched⟩ := ih
    refine ⟨_, result, u, .took_all ne handed, written, fun before => ?_⟩
    rw [writeAll_of_bytes _ ne (k.logged_write wrote before), watched, List.append_assoc,
      List.singleton_append]
  | case4 bs s ne t wrote ih =>
    obtain ⟨log, result, u, handed, written, watched⟩ := ih
    refine ⟨_, result, u, .interrupted_all ne handed, written, fun before => ?_⟩
    rw [writeAll_of_interrupted _ ne (k.logged_write wrote before), watched, List.append_assoc,
      List.singleton_append]
  | case5 bs s ne e t wrote =>
    refine ⟨_, _, t, .failed_all (.failed e) ne rfl, rfl, fun before => ?_⟩
    exact writeAll_of_failure _ ne (k.logged_write wrote before) rfl

namespace Handover

variable {bytes more : Bytes} {log log' : List Deed} {result : Except IoError Unit} {e : IoError}

/-- Behind bytes that were taken the handover goes on with others; a failure ends it whatever there
was left. -/
theorem onward {result' : Except IoError Unit} (h : Handover bytes log result)
    (next : result = .ok () → Handover more log' result')
    (stop : ∀ e, result = .error e → log' = [] ∧ result' = .error e) :
    Handover (bytes ++ more) (log ++ log') result' := by
  induction h with
  | done => exact next rfl
  | took ne _ ih =>
    rw [List.append_assoc, List.cons_append]
    refine .took ne ?_
    rw [← List.append_assoc]
    exact ih next stop
  | interrupted ne _ ih =>
    rw [List.append_assoc, List.cons_append]
    refine .interrupted ne ?_
    rw [← List.append_assoc]
    exact ih next stop
  | @failed offer rest answer e ne fails =>
    obtain ⟨rfl, rfl⟩ := stop e rfl
    rw [List.append_assoc, List.append_nil]
    exact .failed ne fails

theorem append (h : Handover bytes log (.ok ())) (g : Handover more log' result) :
    Handover (bytes ++ more) (log ++ log') result :=
  h.onward (fun _ => g) (by simp)

theorem append_left (h : Handover bytes log (.error e)) (more : Bytes) :
    Handover (bytes ++ more) log (.error e) := by
  have ended : Handover (bytes ++ more) (log ++ []) (.error e) := h.onward (by simp) (by simp)
  rwa [List.append_nil] at ended

/-- What is taken stands in front, and only a failure leaves something. -/
theorem exists_left (h : Handover bytes log result) :
    ∃ left, bytes = taken log ++ left ∧ (result = .ok () ↔ left = []) := by
  induction h with
  | done => exact ⟨[], rfl, by simp⟩
  | @took offer rest n log result ne _ ih =>
    obtain ⟨left, split, ends⟩ := ih
    refine ⟨left, ?_, ends⟩
    rw [taken_cons, Deed.taken, List.append_assoc, ← split, ← List.append_assoc,
      List.take_append_drop]
  | interrupted ne _ ih => exact ih
  | @failed offer rest answer e ne fails =>
    have nothing : (Deed.wrote offer answer).taken = [] := by
      rcases answer with (_ | n) | _ | e <;> simp_all [Deed.taken, Took.failure?]
    exact ⟨offer ++ rest, by simp [nothing], by simp [ne]⟩

theorem taken_prefix (h : Handover bytes log result) : taken log <+: bytes := by
  obtain ⟨left, split, -⟩ := h.exists_left
  exact ⟨left, split.symm⟩

theorem ok_iff (h : Handover bytes log result) : result = .ok () ↔ taken log = bytes := by
  obtain ⟨left, rfl, ends⟩ := h.exists_left
  simp [ends]

/-- Each offer is of the bytes that come next. -/
theorem offered (h : Handover bytes log result) {before after : List Deed} {offer : Bytes}
    {answer : Took} (at' : log = before ++ .wrote offer answer :: after) :
    offer ≠ [] ∧ taken before ++ offer <+: bytes := by
  induction h generalizing before with
  | done => cases before <;> cases at'
  | @took offer' rest n log result ne _ ih =>
    cases before with
    | nil =>
      cases at'
      exact ⟨ne, List.prefix_append _ _⟩
    | cons d before =>
      obtain ⟨rfl, behind⟩ := List.cons.inj at'
      obtain ⟨ne', left, rest⟩ := ih behind
      refine ⟨ne', left, ?_⟩
      rw [taken_cons, Deed.taken, List.append_assoc, List.append_assoc,
        ← List.append_assoc (taken before), rest, ← List.append_assoc, List.take_append_drop]
  | interrupted ne _ ih =>
    cases before with
    | nil =>
      cases at'
      exact ⟨ne, List.prefix_append _ _⟩
    | cons d before =>
      obtain ⟨rfl, behind⟩ := List.cons.inj at'
      obtain ⟨ne', front⟩ := ih behind
      exact ⟨ne', front⟩
  | failed ne _ =>
    cases before with
    | nil =>
      cases at'
      exact ⟨ne, List.prefix_append _ _⟩
    | cons d before => simp at at'

/-- The writing fails exactly with what makes a write fail. -/
theorem error_iff (h : Handover bytes log result) : result = .error e ↔
    ∃ offer answer, .wrote offer answer ∈ log ∧ answer.failure? = some e := by
  induction h with
  | done => simp
  | took ne _ ih => simp [ih, Took.failure?, or_and_right, exists_or]
  | interrupted ne _ ih => simp [ih, Took.failure?, or_and_right, exists_or]
  | failed ne fails => simp [and_assoc, fails]

theorem not_flushed (h : Handover bytes log result) (answer : Option IoError) :
    .flushed answer ∉ log := by
  induction h <;> simp_all

end Handover

end Sink

/-! ## Frames -/

open Sink

namespace Frame

/-- What becomes of a frame, by what the sink is asked. -/
inductive Course (f : Frame) : List Deed → Except Failure Unit → Prop
  | refused (exceeds : maxParcelSize < f.body.length) :
    Course f [] (.error (.tooLarge f.body.length maxParcelSize))
  | broken {log : List Deed} {e : IoError} (fits : f.body.length ≤ maxParcelSize)
    (handed : Handover f.encode log (.error e)) : Course f log (.error (.io e))
  | flushed {log : List Deed} {result : Except Failure Unit} {answer : Option IoError}
    (fits : f.body.length ≤ maxParcelSize) (handed : Handover f.encode log (.ok ()))
    (ends : result = match answer with | none => .ok () | some e => .error (.io e)) :
    Course f (log ++ [.flushed answer]) result

theorem write_course (k : Sink σ) (f : Frame) (s : σ) :
    ∃ log result t, f.Course log result ∧ f.write k s = (result, t) ∧
      (maxParcelSize < f.body.length → t = s) ∧
      ∀ before, f.write k.logged (before, s) = (result, before ++ log, t) := by
  by_cases exceeds : maxParcelSize < f.body.length
  · refine ⟨[], _, s, .refused exceeds, write_of_over exceeds s, fun _ => rfl, fun before => ?_⟩
    rw [write_of_over exceeds, List.append_nil]
  · have fits : f.body.length ≤ maxParcelSize := Nat.le_of_not_lt exceeds
    obtain ⟨log, result, t, handed, header, watched⟩ := k.writeAll_handover f.header s
    simp only [write, exceeds, if_false, header, watched, false_implies, true_and]
    cases result with
    | error e =>
      exact ⟨log, _, t, .broken fits (handed.append_left f.body), rfl, fun _ => rfl⟩
    | ok =>
      obtain ⟨log', result', u, handed', body, watched'⟩ := k.writeAll_handover f.body t
      cases result' with
      | error e =>
        simp only [body, watched']
        refine ⟨log ++ log', _, u, .broken fits (handed.append handed'), rfl, fun before => ?_⟩
        rw [List.append_assoc]
      | ok =>
        simp only [body, watched', logged_flush]
        cases k.flush u with
        | mk answer v =>
          refine ⟨log ++ log' ++ [.flushed answer], _, v,
            .flushed fits (handed.append handed') rfl, ?_, fun before => ?_⟩
          · cases answer <;> rfl
          · cases answer <;> simp

/-- The answer to a frame, by what the sink was asked and what it answered. -/
structure Settled (f : Frame) (log : List Deed) (result : Except Failure Unit) : Prop where
  /-- Whenever the sink was offered bytes, they were those that come next. -/
  offered : ∀ before offer answer after, log = before ++ .wrote offer answer :: after →
    offer ≠ [] ∧ taken before ++ offer <+: f.encode
  taken_prefix : taken log <+: f.encode
  ok_iff : result = .ok () ↔ taken log = f.encode ∧ .flushed none ∈ log
  /-- A failure is that of a write or of the flush. -/
  error_iff : ∀ failure, result = .error failure ↔ ∃ e, failure = .io e ∧
    ((∃ offer answer, .wrote offer answer ∈ log ∧ answer.failure? = some e) ∨
      .flushed (some e) ∈ log)
  /-- The flush comes last, and behind all bytes. -/
  flushed : ∀ before answer after, log = before ++ .flushed answer :: after →
    taken before = f.encode ∧ after = []

namespace Settled

variable {f : Frame} {log : List Deed}

theorem broken {e : IoError} (handed : Handover f.encode log (.error e)) :
    f.Settled log (.error (.io e)) where
  offered _ _ _ _ at' := handed.offered at'
  taken_prefix := handed.taken_prefix
  ok_iff := by simp [handed.not_flushed]
  error_iff failure := by
    have failed := handed.error_iff (e := e)
    constructor
    · rintro ⟨⟩
      exact ⟨e, rfl, .inl (failed.mp rfl)⟩
    · rintro ⟨e', rfl, wrote | flushed⟩
      · cases handed.error_iff.mpr wrote
        rfl
      · exact absurd flushed (handed.not_flushed _)
  flushed before answer after at' := by
    refine absurd ?_ (handed.not_flushed answer)
    rw [at']
    exact List.mem_append_right _ List.mem_cons_self

theorem whole (handed : Handover f.encode log (.ok ())) (answer : Option IoError) :
    f.Settled (log ++ [.flushed answer])
      (match answer with | none => .ok () | some e => .error (.io e)) where
  offered before offer took after at' := by
    obtain ⟨back, rfl, same⟩ | ⟨back, same, rest⟩ := List.append_eq_append_iff.mp at'
    · cases back <;> simp at same
    · cases back with
      | nil => simp at rest
      | cons d back =>
        obtain ⟨rfl, -⟩ := List.cons.inj rest
        exact handed.offered same
  taken_prefix := by
    simpa [Deed.taken] using handed.taken_prefix
  ok_iff := by
    have all := handed.ok_iff.mp rfl
    cases answer <;> simp [handed.not_flushed, all, Deed.taken]
  error_iff failure := by
    have well : ∀ e, ¬ ∃ offer answer, .wrote offer answer ∈ log ∧ answer.failure? = some e := by
      intro e wrote
      cases handed.error_iff.mpr wrote
    cases answer with
    | none => simp [handed.not_flushed, well]
    | some e =>
      simp only [Except.error.injEq, List.mem_append, List.mem_singleton, reduceCtorEq, or_false,
        well, handed.not_flushed, false_or, Deed.flushed.injEq, Option.some.injEq]
      constructor
      · rintro rfl
        exact ⟨e, rfl, rfl⟩
      · rintro ⟨e', rfl, rfl⟩
        rfl
  flushed before answer' after at' := by
    have all := handed.ok_iff.mp rfl
    obtain ⟨back, rfl, same⟩ | ⟨back, same, rest⟩ := List.append_eq_append_iff.mp at'
    · cases back with
      | nil => simp_all
      | cons d back => simp at same
    · cases back with
      | nil => simp_all
      | cons d back =>
        obtain ⟨rfl, -⟩ := List.cons.inj rest
        exact absurd (same ▸ List.mem_append_right _ List.mem_cons_self)
          (handed.not_flushed answer')

end Settled

/-- Whatever a sink does, a frame is answered by what it took of it. A body over the limit is
refused, and the sink is asked for nothing. Of any other frame it takes bytes from the front, and
the frame is well exactly if it took all of them and could flush. Else the answer is the failure of
a write or of the flush, which is asked for behind all bytes only. What sinks have taken of a frame
that was well is the same for all of them. -/
theorem write_accounted (f : Frame) :
    (∀ (σ : Type) (k : Sink σ) (s : σ), ∃ result log t, f.write k s = (result, t) ∧
      f.write k.logged ([], s) = (result, log, t) ∧
      if f.body.length ≤ maxParcelSize then f.Settled log result
      else result = .error (.tooLarge f.body.length maxParcelSize) ∧ log = [] ∧ t = s) ∧
    ∀ (σ τ : Type) (k : Sink σ) (l : Sink τ) (s : σ) (t : τ), (f.write k s).1 = .ok () →
      (f.write l t).1 = .ok () →
      taken (f.write k.logged ([], s)).2.1 = taken (f.write l.logged ([], t)).2.1 := by
  have settled (σ : Type) (k : Sink σ) (s : σ) : ∃ result log t, f.write k s = (result, t) ∧
      f.write k.logged ([], s) = (result, log, t) ∧
      if f.body.length ≤ maxParcelSize then f.Settled log result
      else result = .error (.tooLarge f.body.length maxParcelSize) ∧ log = [] ∧ t = s := by
    obtain ⟨log, result, t, course, written, unmoved, watched⟩ := f.write_course k s
    refine ⟨result, log, t, written, watched [], ?_⟩
    cases course with
    | refused exceeds =>
      rw [if_neg (Nat.not_le.mpr exceeds)]
      exact ⟨rfl, rfl, unmoved exceeds⟩
    | broken fits handed =>
      rw [if_pos fits]
      exact .broken handed
    | flushed fits handed ends =>
      rw [if_pos fits, ends]
      exact .whole handed _
  have whole (σ : Type) (k : Sink σ) (s : σ) (ok : (f.write k s).1 = .ok ()) :
      taken (f.write k.logged ([], s)).2.1 = f.encode := by
    obtain ⟨result, log, t, written, watched, account⟩ := settled σ k s
    rw [written] at ok
    split at account
    · rw [watched]
      exact (account.ok_iff.mp ok).1
    · cases ok.symm.trans account.1
  exact ⟨settled, fun σ τ k l s t ok ok' => (whole σ k s ok).trans (whole τ l t ok').symm⟩

/-- A channel that is interrupted twice and takes five bytes at once, beside a pipe that takes them
one by one. -/
theorem write_accounted_slow :
    let f : Frame := ⟨7, 0, [1, 2]⟩
    let slow : Channel := { stride := some 5, interrupts := 2 }
    (f.write Channel.sink slow).1 = .ok () ∧ (f.write (Sink.pipe 0) []).1 = .ok () ∧
      taken (f.write Channel.sink.logged ([], slow)).2.1 =
        taken (f.write (Sink.pipe 0).logged ([], [])).2.1 := by
  intro f slow
  have ok : (f.write Channel.sink slow).1 = .ok () := by cbv
  have ok' : (f.write (Sink.pipe 0) []).1 = .ok () := by cbv
  exact ⟨ok, ok', (write_accounted f).2 _ _ _ _ slow [] ok ok'⟩

end Frame

end StorageBus
