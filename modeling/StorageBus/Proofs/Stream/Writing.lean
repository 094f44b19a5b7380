import StorageBus.Frame.Sink

/-!
# What a stream takes of a frame

A byte stream adds to what it has taken some bytes from the front of what it is given. However it
does so, a frame that was written well is on the stream as a whole, a frame that was refused is not
there at all, and of any other there is less than the whole.

## Main definitions

* `Sink.Stream` — a sink as a byte stream; `Sink.Stream.Reliable` — one that never fails.
* `Frame.Outcome` — the answers to a frame, each with what is on the stream.
* `Tape`, `Sink.pipe` — a stream that answers as it is told to, and one that never fails.

## Main results

* `Sink.Stream.write_outcome` — what is on the stream fits the answer.
* `Sink.Stream.Reliable.write_eq` — on a reliable stream only the size of the body counts.
-/
namespace StorageBus

/-! ## Strict prefixes -/

/-- The first bytes of some others, but not all of them. -/
def StrictPrefix (part whole : Bytes) : Prop := part <+: whole ∧ part ≠ whole

namespace StrictPrefix

variable {part whole : Bytes}

theorem length_lt (h : StrictPrefix part whole) : part.length < whole.length := by
  have le := h.1.length_le
  have ne : part.length ≠ whole.length := fun same => h.2 (h.1.eq_of_length same)
  omega

theorem nil (h : whole ≠ []) : StrictPrefix [] whole := ⟨List.nil_prefix, h.symm⟩

theorem append_left (front : Bytes) (h : StrictPrefix part whole) :
    StrictPrefix (front ++ part) (front ++ whole) :=
  ⟨(List.prefix_append_right_inj front).mpr h.1, fun same => h.2 (List.append_cancel_left same)⟩

theorem append_right (h : StrictPrefix part whole) (rest : Bytes) :
    StrictPrefix part (whole ++ rest) := by
  refine ⟨h.1.trans (List.prefix_append whole rest), fun same => ?_⟩
  have lt := h.length_lt
  have le := congrArg List.length same
  rw [List.length_append] at le
  omega

end StrictPrefix

/-! ## Streams -/

variable {σ : Type}

/-- A sink as a byte stream: each write adds to what was taken so far as many bytes as it says, from
the front of those it is given, or none. Nothing is left to do for a flush. -/
structure Sink.Stream (k : Sink σ) where
  sent : σ → Bytes
  sent_of_bytes : ∀ {bs s n t}, k.write bs s = (.bytes n, t) →
    n ≤ bs.length ∧ sent t = sent s ++ bs.take n
  sent_of_interrupted : ∀ {bs s t}, k.write bs s = (.interrupted, t) → sent t = sent s
  sent_of_failed : ∀ {bs s e t}, k.write bs s = (.failed e, t) → sent t = sent s
  flush_eq : ∀ s, k.flush s = (none, s)

namespace Sink.Stream

variable {k : Sink σ} (w : k.Stream)

/-- All bytes are on the stream, or a strict prefix of them and an error. -/
theorem writeAll_cases (bs : Bytes) (s : σ) :
    (∃ t, k.writeAll bs s = (.ok (), t) ∧ w.sent t = w.sent s ++ bs) ∨
      ∃ e part t, k.writeAll bs s = (.error e, t) ∧ StrictPrefix part bs ∧
        w.sent t = w.sent s ++ part := by
  fun_induction k.writeAll bs s with
  | case1 s => exact .inl ⟨s, rfl, (List.append_nil _).symm⟩
  | case2 bs s ne t wrote =>
    have sent := (w.sent_of_bytes wrote).2
    exact .inr ⟨_, [], t, rfl, .nil ne, by simpa using sent⟩
  | case3 bs s ne n t wrote ih =>
    obtain ⟨le, sent⟩ := w.sent_of_bytes wrote
    have split : bs = bs.take (n + 1) ++ bs.drop (n + 1) := (List.take_append_drop _ _).symm
    rcases ih with ⟨u, done, rest⟩ | ⟨e, part, u, failed, cut, rest⟩
    · refine .inl ⟨u, done, ?_⟩
      rw [rest, sent, List.append_assoc, ← split]
    · refine .inr ⟨e, bs.take (n + 1) ++ part, u, failed, ?_, ?_⟩
      · have longer := cut.append_left (bs.take (n + 1))
        rwa [← split] at longer
      · rw [rest, sent, List.append_assoc]
  | case4 bs s ne t wrote ih =>
    rw [← w.sent_of_interrupted wrote]
    exact ih
  | case5 bs s ne e t wrote =>
    have sent := w.sent_of_failed wrote
    exact .inr ⟨e, [], t, rfl, .nil ne, by simpa using sent⟩

end Sink.Stream

/-! ## Frames -/

/-- The answers to a frame that is written, each with what is on the stream after it. -/
inductive Frame.Outcome (f : Frame) : Except Failure Unit → Bytes → Prop
  | whole (fits : f.body.length ≤ maxParcelSize) : Outcome f (.ok ()) f.encode
  | refused (exceeds : maxParcelSize < f.body.length) :
    Outcome f (.error (.tooLarge f.body.length maxParcelSize)) []
  | broken (e : IoError) {part : Bytes} (fits : f.body.length ≤ maxParcelSize)
    (cut : StrictPrefix part f.encode) : Outcome f (.error (.io e)) part

theorem Frame.write_of_over {k : Sink σ} {f : Frame} (exceeds : maxParcelSize < f.body.length)
    (s : σ) : f.write k s = (.error (.tooLarge f.body.length maxParcelSize), s) := by
  rw [write, if_pos exceeds]

namespace Sink.Stream

variable {k : Sink σ} (w : k.Stream)

theorem write_outcome (f : Frame) (s : σ) : ∃ bytes, f.Outcome (f.write k s).1 bytes ∧
    w.sent (f.write k s).2 = w.sent s ++ bytes := by
  by_cases exceeds : maxParcelSize < f.body.length
  · rw [Frame.write_of_over exceeds]
    exact ⟨[], .refused exceeds, (List.append_nil _).symm⟩
  · have fits : f.body.length ≤ maxParcelSize := Nat.le_of_not_lt exceeds
    rw [Frame.write, if_neg exceeds]
    rcases w.writeAll_cases f.header s with ⟨t, header, sent⟩ | ⟨e, part, t, header, cut, sent⟩
    · rcases w.writeAll_cases f.body t with ⟨u, body, sent'⟩ | ⟨e, part, u, body, cut, sent'⟩
      · simp only [header, body, w.flush_eq]
        refine ⟨f.encode, .whole fits, ?_⟩
        rw [sent', sent, List.append_assoc, Frame.encode]
      · simp only [header, body]
        refine ⟨f.header ++ part, .broken e fits (cut.append_left f.header), ?_⟩
        rw [sent', sent, List.append_assoc]
    · simp only [header]
      exact ⟨part, .broken e fits (cut.append_right f.body), sent⟩

/-! ## Reliable streams -/

/-- Every write takes something, unless it is interrupted. -/
def Reliable (_ : k.Stream) : Prop :=
  ∀ ⦃bs s took t⦄, bs ≠ [] → k.write bs s = (took, t) →
    took = .interrupted ∨ ∃ n, took = .bytes (n + 1)

namespace Reliable

variable {w}

theorem writeAll_eq (reliable : w.Reliable) (bs : Bytes) (s : σ) :
    ∃ t, k.writeAll bs s = (.ok (), t) ∧ w.sent t = w.sent s ++ bs := by
  rcases w.writeAll_cases bs s with done | ⟨e, part, t, failed, -, -⟩
  · exact done
  · exfalso
    fun_induction k.writeAll bs s with
    | case1 s => cases failed
    | case2 bs s ne u wrote => simpa using reliable ne wrote
    | case3 bs s ne n u wrote ih => exact ih failed
    | case4 bs s ne u wrote ih => exact ih failed
    | case5 bs s ne e u wrote => simpa using reliable ne wrote

theorem write_eq (reliable : w.Reliable) (f : Frame) (s : σ) :
    if f.body.length ≤ maxParcelSize then
      (f.write k s).1 = .ok () ∧ w.sent (f.write k s).2 = w.sent s ++ f.encode
    else f.write k s = (.error (.tooLarge f.body.length maxParcelSize), s) := by
  split
  · next fits =>
    obtain ⟨t, header, sent⟩ := reliable.writeAll_eq f.header s
    obtain ⟨u, body, sent'⟩ := reliable.writeAll_eq f.body t
    rw [Frame.write, if_neg (Nat.not_lt.mpr fits)]
    simp only [header, body, w.flush_eq, true_and]
    rw [sent', sent, List.append_assoc, Frame.encode]
  · next exceeds => exact Frame.write_of_over (Nat.lt_of_not_le exceeds) s

theorem writeEach_eq (reliable : w.Reliable) {fs : List Frame}
    (fits : ∀ f ∈ fs, f.body.length ≤ maxParcelSize) (s : σ) :
    (Frame.writeEach k fs s).1 = fs.map (fun _ => .ok ()) ∧
      w.sent (Frame.writeEach k fs s).2 = w.sent s ++ fs.flatMap Frame.encode := by
  induction fs generalizing s with
  | nil => exact ⟨rfl, (List.append_nil _).symm⟩
  | cons f fs ih =>
    have first := reliable.write_eq f s
    rw [if_pos (fits f List.mem_cons_self)] at first
    obtain ⟨results, sent⟩ := ih (fun g mem => fits g (List.mem_cons_of_mem f mem)) (f.write k s).2
    rw [Frame.writeEach]
    refine ⟨?_, ?_⟩
    · simp only [first.1, results, List.map_cons]
    · simp only [sent, first.2, List.flatMap_cons, List.append_assoc]

end Reliable

end Sink.Stream

/-! ## Tapes -/

/-- A stream with the answers to the writes to come; behind the last it takes everything. -/
structure Tape where
  answers : List Took := []
  sent : Bytes := []
deriving DecidableEq, Repr

namespace Tape

/-- An answer that says more bytes than there are stands for all of them. -/
def write (bs : Bytes) (tape : Tape) : Took × Tape :=
  match tape.answers with
  | [] => (.bytes bs.length, { tape with sent := tape.sent ++ bs })
  | .bytes n :: answers => (.bytes (min n bs.length), ⟨answers, tape.sent ++ bs.take n⟩)
  | answer :: answers => (answer, { tape with answers })

def sink : Sink Tape where
  write := write
  flush tape := (none, tape)
  patience tape := tape.answers.length
  patience_lt := by
    rintro bs ⟨_ | ⟨_ | _ | _, answers⟩, sent⟩ t h <;> simp only [write, Prod.mk.injEq] at h
    · simp at h
    · simp at h
    · simp [← h.2]
    · simp at h

def stream : sink.Stream where
  sent := sent
  sent_of_bytes := by
    rintro bs ⟨_ | ⟨_ | _ | _, answers⟩, sent⟩ n t h <;>
      simp only [sink, write, Prod.mk.injEq, Took.bytes.injEq, reduceCtorEq, false_and] at h
    · obtain ⟨rfl, rfl⟩ := h
      simp
    · obtain ⟨rfl, rfl⟩ := h
      exact ⟨Nat.min_le_right _ _, by simp [List.take_eq_take_iff]⟩
  sent_of_interrupted := by
    rintro bs ⟨_ | ⟨_ | _ | _, answers⟩, sent⟩ t h <;> simp [sink, write] at h
    simp [← h]
  sent_of_failed := by
    rintro bs ⟨_ | ⟨_ | _ | _, answers⟩, sent⟩ e t h <;> simp [sink, write] at h
    simp [← h.2]
  flush_eq _ := rfl

end Tape

/-! ## Pipes -/

/-- A stream that takes at most `stride + 1` bytes at once, but never fails. -/
def Sink.pipe (stride : Nat) : Sink Bytes where
  write bs sent := (.bytes (min (stride + 1) bs.length), sent ++ bs.take (stride + 1))
  flush sent := (none, sent)
  patience _ := 0
  patience_lt := by simp

namespace Sink.pipe

variable {stride : Nat}

def stream : (Sink.pipe stride).Stream where
  sent := id
  sent_of_bytes := by
    rintro bs s n t ⟨⟩
    exact ⟨Nat.min_le_right _ _, by simp [List.take_eq_take_iff]⟩
  sent_of_interrupted := by
    rintro bs s t ⟨⟩
  sent_of_failed := by
    rintro bs s e t ⟨⟩
  flush_eq _ := rfl

theorem reliable : (stream : (pipe stride).Stream).Reliable := by
  rintro bs s took t ne ⟨⟩
  have pos : 0 < bs.length := List.length_pos_iff.mpr ne
  refine .inr ⟨min stride (bs.length - 1), ?_⟩
  congr 1
  omega

end Sink.pipe

end StorageBus
