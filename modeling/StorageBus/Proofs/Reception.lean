import StorageBus.Endpoint.Carrier
import StorageBus.Proofs.Codec.Grammar
import StorageBus.Receiver

/-!
# What becomes of a call

What a call is to an interface is decided by its bytes alone, and a call is exactly one thing. Only
a call that is an event reaches the listener, once, and only a listener that fails is reported,
once. This holds for any listener, through any number of calls, and whatever became of those before.

## Main definitions

* `Fate`, `Fate.Of` — what a call is to an interface.
* `Receiver.logged` — a receiver with a log of what its listener and its reporter are called with.
* `Receiver.Answers` — the verdict on a call, and what is done for it.
* `Receiver.Run` — calls one after the other.

## Main results

* `Fate.existsUnique` — a call is exactly one thing.
* `Receiver.receive_answers` — one call, watched and unwatched.
* `Receiver.answers_each` — any number of calls.
-/
namespace StorageBus

open Parcel Event

/-! ## What a call is -/

/-- What a call can be to an interface. -/
inductive Fate where
  | unreadable
  | foreign (token : String)
  | unknown
  | garbled
  | event (e : Event)

/-- The bytes start with this token, and these are behind it. -/
def Presents (bytes : Bytes) (token : String) (arguments : Bytes) : Prop :=
  ∃ front, bytes = front ++ arguments ∧ TokenForm token front

/-- What a call is to the interface with the descriptor. Without a token that can be read nothing
else counts, with another's token neither code nor arguments, and with an unknown code no
arguments. -/
inductive Fate.Of (descriptor : String) (c : Call) : Fate → Prop
  | unreadable (tokenless : ∀ token arguments, ¬ Presents c.bytes token arguments) :
    Of descriptor c .unreadable
  | foreign {token : String} {arguments : Bytes} (presents : Presents c.bytes token arguments)
    (ne : token ≠ descriptor) : Of descriptor c (.foreign token)
  | unknown {arguments : Bytes} (presents : Presents c.bytes descriptor arguments)
    (codeless : ∀ k : Kind, k.code ≠ c.code) : Of descriptor c .unknown
  | garbled {arguments : Bytes} {k : Kind} (presents : Presents c.bytes descriptor arguments)
    (code : k.code = c.code) (formless : ∀ e n, ¬ StartsWith k arguments e n) :
    Of descriptor c .garbled
  | event {arguments : Bytes} {k : Kind} {e : Event} {n : Nat}
    (presents : Presents c.bytes descriptor arguments) (code : k.code = c.code)
    (starts : StartsWith k arguments e n) : Of descriptor c (.event e)

/-- A token is read, with the arguments behind it, exactly if it is there. -/
theorem token_ok_iff {bytes : Bytes} {token : String} {after : Reader} :
    Reader.token (Reader.ofBytes bytes) = .ok token after ↔
      ∃ front rest, bytes = front ++ rest ∧ TokenForm token front ∧
        after = ⟨64, front.length, rest⟩ :=
  Accepts.token.ok_iff (by decide)

theorem Presents.unique {bytes arguments arguments' : Bytes} {token token' : String}
    (h : Presents bytes token arguments) (h' : Presents bytes token' arguments') :
    token = token' ∧ arguments = arguments' := by
  obtain ⟨front, rfl, first⟩ := h
  obtain ⟨front', same, second⟩ := h'
  obtain ⟨tokens, -, rests⟩ := Accepts.token.unique (by decide) first second same
  exact ⟨tokens, rests⟩

theorem Event.Kind.code_inj {k k' : Kind} (h : k.code = k'.code) : k = k' := by
  have found := ofCode?_code k
  rw [h, ofCode?_code] at found
  exact (Option.some.inj found).symm

theorem Event.StartsWith.unique {k : Kind} {bytes : Bytes} {e e' : Event} {n n' : Nat}
    (h : StartsWith k bytes e n) (h' : StartsWith k bytes e' n') : e = e' := by
  obtain ⟨front, rest, rfl, -, kind, hasForm⟩ := startsWith_iff.mp h
  obtain ⟨front', rest', same, -, kind', hasForm'⟩ := startsWith_iff.mp h'
  exact ((accepts_read k).unique few_items ⟨kind, hasForm⟩ ⟨kind', hasForm'⟩ same).1

theorem Fate.Of.unique {descriptor : String} {c : Call} {fate fate' : Fate}
    (h : Of descriptor c fate) (h' : Of descriptor c fate') : fate = fate' := by
  -- token and arguments are the same for both, then the kind, then the event
  cases h <;> cases h' <;> grind [Presents.unique, Event.Kind.code_inj, Event.StartsWith.unique]

/-- A call is exactly one thing to an interface. -/
theorem Fate.existsUnique (descriptor : String) (c : Call) : ∃! fate, Of descriptor c fate := by
  suffices ∃ fate, Of descriptor c fate by
    obtain ⟨fate, is⟩ := this
    exact ⟨fate, is, fun _ is' => is'.unique is⟩
  by_cases readable : ∃ token arguments, Presents c.bytes token arguments
  · obtain ⟨token, arguments, presents⟩ := readable
    by_cases own : token = descriptor
    · subst own
      by_cases known : ∃ k : Kind, k.code = c.code
      · obtain ⟨k, code⟩ := known
        by_cases hasForm : ∃ e n, StartsWith k arguments e n
        · obtain ⟨e, n, starts⟩ := hasForm
          exact ⟨_, .event presents code starts⟩
        · exact ⟨_, .garbled presents code fun e n starts => hasForm ⟨e, n, starts⟩⟩
      · exact ⟨_, .unknown presents fun k code => known ⟨k, code⟩⟩
    · exact ⟨_, .foreign presents own⟩
  · exact ⟨_, .unreadable fun token arguments presents => readable ⟨token, arguments, presents⟩⟩

/-! ## What is done for a call -/

/-- A call of a listener, with its outcome, or of a reporter. -/
inductive Receiver.Entry where
  | heard (e : Event) (outcome : Except Panic (Except Fault Unit))
  | reported (code : UInt32) (fault : Fault)

namespace Receiver

variable {σ : Type}

/-- The receiver with a log of the calls of its listener and its reporter, the earliest first. -/
def logged (r : Receiver σ) : Receiver (List Entry × σ) where
  descriptor := r.descriptor
  listener e := fun (log, s) =>
    match r.listener e s with
    | .ok answer s => .ok answer (log ++ [.heard e (.ok answer)], s)
    | .error panic s => .error panic (log ++ [.heard e (.error panic)], s)
  report code fault := fun (log, s) => (log ++ [.reported code fault], r.report code fault s)

/-- Why a listener failed: for its own reason, for what another fault says, or with a panic. -/
inductive FailsWith : Except Panic (Except Fault Unit) → String → Prop
  | own (reason : String) : FailsWith (.ok (.error (.handler reason))) reason
  | other {fault : Fault} (other : ∀ reason, fault ≠ .handler reason) :
    FailsWith (.ok (.error fault)) fault.message
  | raised (text : String) : FailsWith (.error ⟨some text⟩) ("panicked: " ++ text)
  | mute : FailsWith (.error ⟨none⟩) "panicked"

/-- The verdict on a call, depending on what it is, with what is done for it and the state it
leaves. -/
inductive Answers (r : Receiver σ) (code : UInt32) (s : σ) :
    Fate → Verdict → List Entry → σ → Prop
  | unreadable (reason : String) :
    Answers r code s .unreadable (.failed (.malformed reason)) [] s
  | foreign (token : String) :
    Answers r code s (.foreign token) (.rejected (.interfaceMismatch r.descriptor token)) [] s
  | unknown : Answers r code s .unknown .notHandled [] s
  | garbled (reason : String) : Answers r code s .garbled (.failed (.malformed reason)) [] s
  | handled {e : Event} {t : σ} (ended : (r.listener e).attempt s = (.ok (.ok ()), t)) :
    Answers r code s (.event e) .handled [.heard e (.ok (.ok ()))] t
  | failed {e : Event} {outcome : Except Panic (Except Fault Unit)} {t : σ} {reason : String}
    (ended : (r.listener e).attempt s = (outcome, t)) (fails : FailsWith outcome reason) :
    Answers r code s (.event e) (.failed (.handler reason))
      [.heard e outcome, .reported code (.handler reason)] (r.report code (.handler reason) t)

theorem failure?_cases (outcome : Except Panic (Except Fault Unit)) :
    (outcome = .ok (.ok ()) ∧ failure? outcome = none) ∨
      ∃ reason, FailsWith outcome reason ∧ failure? outcome = some (.handler reason) := by
  cases outcome with
  | ok answer =>
    cases answer with
    | ok => exact .inl ⟨rfl, rfl⟩
    | error fault =>
      cases fault with
      | handler reason => exact .inr ⟨reason, .own reason, rfl⟩
      | _ => exact .inr ⟨_, .other nofun, rfl⟩
  | error panic =>
    obtain ⟨_ | text⟩ := panic
    · exact .inr ⟨_, .mute, rfl⟩
    · exact .inr ⟨_, .raised text, rfl⟩

theorem attempt_logged (r : Receiver σ) (e : Event) (log : List Entry) (s : σ) :
    (r.logged.listener e).attempt (log, s) =
      (((r.listener e).attempt s).1, log ++ [.heard e ((r.listener e).attempt s).1],
        ((r.listener e).attempt s).2) := by
  simp only [logged, Act.attempt]
  cases r.listener e s <;> rfl

theorem report_logged (r : Receiver σ) (code : UInt32) (fault : Fault) (log : List Entry) (s : σ) :
    r.logged.report code fault (log, s) =
      (log ++ [.reported code fault], r.report code fault s) := rfl

theorem invoke_answers (r : Receiver σ) (code : UInt32) (e : Event) (s : σ) :
    ∃ verdict entries t, r.Answers code s (.event e) verdict entries t ∧
      r.invoke code e s = (verdict, t) ∧
      ∀ log, r.logged.invoke code e (log, s) = (verdict, log ++ entries, t) := by
  obtain ⟨outcome, t, ended⟩ : ∃ outcome t, (r.listener e).attempt s = (outcome, t) :=
    ⟨_, _, rfl⟩
  simp only [invoke, attempt_logged, ended]
  rcases failure?_cases outcome with ⟨rfl, well⟩ | ⟨reason, fails, failure⟩
  · rw [well]
    exact ⟨_, _, _, .handled ended, rfl, fun log => rfl⟩
  · rw [failure]
    refine ⟨_, _, _, .failed ended fails, rfl, fun log => ?_⟩
    simp only [report_logged, List.append_assoc, List.cons_append, List.nil_append]

variable {r : Receiver σ} {c : Call} {arguments : Bytes}

/-- A call with the receiver's own token. -/
theorem dispatch_answers (presents : Presents c.bytes r.descriptor arguments) (s : σ) :
    ∃ fate verdict entries t, Fate.Of r.descriptor c fate ∧
      r.Answers c.code s fate verdict entries t ∧
      r.dispatch c.code r.descriptor arguments s = (verdict, t) ∧
      ∀ log, r.logged.dispatch c.code r.descriptor arguments (log, s) =
        (verdict, log ++ entries, t) := by
  have same : r.logged.descriptor = r.descriptor := rfl
  simp only [dispatch, same, ne_eq, not_true_eq_false, if_false]
  cases known : Kind.ofCode? c.code with
  | none =>
    refine ⟨_, _, _, s, .unknown presents ?_, .unknown, rfl, fun log => by rw [List.append_nil]⟩
    intro k code
    rw [← code, Kind.ofCode?_code] at known
    cases known
  | some k =>
    have code := Kind.code_of_ofCode? known
    have decoded : decode k.code arguments = decodeArguments k arguments := by
      rw [decode, Kind.ofCode?_code]
    cases arrived : decodeArguments k arguments with
    | ok e =>
      obtain ⟨n, decodes⟩ := decode_iff.mp (decoded.trans arrived)
      obtain ⟨verdict, entries, t, answers, invoked, watched⟩ := r.invoke_answers c.code e s
      simp only [arrived]
      exact ⟨_, verdict, entries, t, .event presents code (decodes_iff.mp decodes), answers,
        invoked, watched⟩
    | error fault =>
      have failed := decoded.trans arrived
      obtain ⟨reason, malformed⟩ : Malformed k.code arguments := by
        refine (ok_or_malformed k arguments).resolve_left ?_
        rintro ⟨e, ok⟩
        cases failed.symm.trans ok
      cases failed.symm.trans malformed
      simp only [arrived]
      refine ⟨_, _, _, s, .garbled presents code ?_, .garbled _, rfl,
        fun log => by rw [List.append_nil]⟩
      intro e n starts
      exact malformed_iff.mp ⟨reason, malformed⟩ ⟨e, n, starts⟩

/-- One call. That it is watched makes no difference to it. -/
theorem receive_answers (r : Receiver σ) (c : Call) (s : σ) :
    ∃ fate verdict entries t, Fate.Of r.descriptor c fate ∧
      r.Answers c.code s fate verdict entries t ∧ r.receive c.code c.bytes s = (verdict, t) ∧
      ∀ log, r.logged.receive c.code c.bytes (log, s) = (verdict, log ++ entries, t) := by
  cases read : Reader.token (Reader.ofBytes c.bytes) with
  | error e after =>
    simp only [receive, read]
    refine ⟨_, _, _, s, .unreadable ?_, .unreadable _, rfl, fun log => by rw [List.append_nil]⟩
    rintro token arguments ⟨front, bytes, hasForm⟩
    cases read.symm.trans (token_ok_iff.mpr ⟨front, arguments, bytes, hasForm, rfl⟩)
  | ok token after =>
    obtain ⟨front, arguments, bytes, hasForm, rfl⟩ := token_ok_iff.mp read
    have presents : Presents c.bytes token arguments := ⟨front, bytes, hasForm⟩
    simp only [receive, read]
    by_cases own : token = r.descriptor
    · subst own
      exact dispatch_answers presents s
    · refine ⟨_, _, _, s, .foreign presents own, .foreign token, if_pos own, fun log => ?_⟩
      rw [List.append_nil]
      exact if_pos own

/-! ## One call after the other -/

/-- The verdicts on calls that come one after the other. -/
def receiveEach (r : Receiver σ) : List Call → σ → List Verdict × σ
  | [], s => ([], s)
  | c :: cs, s =>
    let (verdict, s) := r.receive c.code c.bytes s
    let (verdicts, s) := receiveEach r cs s
    (verdict :: verdicts, s)

/-- A call, what it was, the verdict on it, and what was done for it. -/
structure Answer where
  call : Call
  fate : Fate
  verdict : Verdict
  entries : List Entry

/-- Calls that are answered one after the other, each in the state that the one before it left. -/
inductive Run (r : Receiver σ) : σ → List Answer → σ → Prop
  | nil (s : σ) : Run r s [] s
  | cons {a : Answer} {done : List Answer} {s t u : σ} (is : Fate.Of r.descriptor a.call a.fate)
    (answers : r.Answers a.call.code s a.fate a.verdict a.entries t) (rest : Run r t done u) :
    Run r s (a :: done) u

theorem receiveEach_answers (r : Receiver σ) (calls : List Call) (s : σ) :
    ∃ done t, r.Run s done t ∧ done.map Answer.call = calls ∧
      r.receiveEach calls s = (done.map Answer.verdict, t) ∧
      ∀ log, r.logged.receiveEach calls (log, s) =
        (done.map Answer.verdict, log ++ done.flatMap Answer.entries, t) := by
  induction calls generalizing s with
  | nil => exact ⟨[], s, .nil s, rfl, rfl, fun log => by simp [receiveEach]⟩
  | cons c cs ih =>
    obtain ⟨fate, verdict, entries, t, is, answers, received, watched⟩ := r.receive_answers c s
    obtain ⟨done, u, run, calls, rest, restWatched⟩ := ih t
    refine ⟨⟨c, fate, verdict, entries⟩ :: done, u, .cons is answers run, ?_, ?_, fun log => ?_⟩
    · rw [List.map_cons, calls]
    · simp only [receiveEach, received, rest, List.map_cons]
    · simp only [receiveEach, watched, restWatched, List.map_cons, List.flatMap_cons,
        List.append_assoc]

/-- Every call is exactly one thing to the receiver. Calls that come one after the other are
answered accordingly, and the log holds what is done for them and nothing else. -/
theorem answers_each (r : Receiver σ) (calls : List Call) (s : σ) :
    (∀ c, ∃! fate, Fate.Of r.descriptor c fate) ∧
    ∃ done t, r.Run s done t ∧ done.map Answer.call = calls ∧
      r.receiveEach calls s = (done.map Answer.verdict, t) ∧
      r.logged.receiveEach calls ([], s) =
        (done.map Answer.verdict, done.flatMap Answer.entries, t) := by
  obtain ⟨done, t, run, calls, received, watched⟩ := r.receiveEach_answers calls s
  exact ⟨Fate.existsUnique r.descriptor, done, t, run, calls, received, watched []⟩

end Receiver

end StorageBus
