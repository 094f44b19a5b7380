import StorageBus.Endpoint.Carrier
import StorageBus.Proofs.Stream.Framing
import StorageBus.Proofs.Stream.Writing
import StorageBus.Receiver

/-!
# What a stream gives back

However a stream is cut into pieces, and however often its reads are interrupted, reading it gives
the frames whose bytes it carries. Bytes of a frame that was broken off are left over behind the
complete frames, and the stream then ends too early.

## Main definitions

* `Source.Gives` — the source gives exactly these bytes.
* `Ended` — how a stream ends, depending on what is left over.
* `Source.serveCalls` — a dispatcher behind a stream.

## Main results

* `Source.Gives.framed` — the frames of a source, and how it ends.
* `Source.Gives.serve_eq` — the frames are handed on in order, and counted if nothing is left over.
* `Frame.stream_exact` — frames that are written, read back and handed on.
-/
namespace StorageBus

/-- The source gives exactly these bytes, in pieces of any size. Interruptions cost nothing. -/
inductive Source.Gives : Source → Bytes → Prop
  | done : Gives [] []
  | piece {bs : Bytes} {src : Source} {rest : Bytes} (ne : bs ≠ []) (more : Gives src rest) :
    Gives (.bytes bs :: src) (bs ++ rest)
  | interrupted {e : IoError} {src : Source} {rest : Bytes} (kind : e.kind = .interrupted)
    (more : Gives src rest) : Gives (.failure e :: src) rest

namespace Source.Gives

variable {src : Source} {bytes : Bytes}

theorem given_eq (h : src.Gives bytes) : src.given = bytes := by
  induction h with
  | done => rfl
  | piece ne more ih => rw [given_bytes ne, ih]
  | interrupted kind more ih => rw [given_interrupted kind, ih]

theorem failure?_eq (h : src.Gives bytes) : src.failure? = none := by
  induction h with
  | done => rfl
  | piece ne more ih => rw [failure?_bytes ne, ih]
  | interrupted kind more ih => rw [failure?_interrupted kind, ih]

end Source.Gives

/-! ## What is left over -/

/-- A stream ends with the value if nothing is left over, and else too early. -/
def Ended {α : Type} (leftover : Bytes) (v : α) (ending : Except Failure α) : Prop :=
  if leftover = [] then ending = .ok v
  else ∃ e, ending = .error (.io e) ∧ e.kind = .unexpectedEof

theorem Ended.clean {α : Type} (v : α) : Ended [] v (.ok v) := by
  rw [Ended, if_pos rfl]

theorem Ended.early {α : Type} {leftover : Bytes} (nonempty : leftover ≠ []) (v : α) {e : IoError}
    (kind : e.kind = .unexpectedEof) : Ended leftover v (.error (.io e)) := by
  rw [Ended, if_neg nonempty]
  exact ⟨e, rfl, kind⟩

theorem Ended.map {α β : Type} {leftover : Bytes} {v : α} {ending : Except Failure α}
    (h : Ended leftover v ending) (g : α → β) : Ended leftover (g v) (ending.map g) := by
  unfold Ended at *
  split at h
  · next empty =>
    rw [if_pos empty, h]
    rfl
  · next nonempty =>
    obtain ⟨e, rfl, kind⟩ := h
    rw [if_neg nonempty]
    exact ⟨e, rfl, kind⟩

namespace Source.Gives

/-- What may be left over on a stream: less than the whole of one frame. -/
def Leftover (tail : Bytes) : Prop :=
  ∃ f : Frame, f.body.length ≤ maxParcelSize ∧ StrictPrefix tail f.encode

theorem Leftover.nil : Leftover [] :=
  ⟨⟨0, 0, []⟩, Nat.zero_le _, .nil (by simp [Frame.encode, Frame.header, Word.encode])⟩

/-- A frame that is broken off, within its header or within its body. -/
theorem Leftover.stops {tail : Bytes} (h : Leftover tail) :
    ∃ stop, Stops tail none stop ∧ Ended tail () stop := by
  obtain ⟨f, fits, cut⟩ := h
  by_cases empty : tail = []
  · subst empty
    exact ⟨.ok (), .clean rfl, .clean ()⟩
  · have nonempty : tail.length ≠ 0 := fun length => empty (List.length_eq_zero_iff.mp length)
    by_cases short : tail.length < Frame.headerSize
    · exact ⟨_, .inHeader nonempty short, .early empty () rfl⟩
    · have long : Frame.headerSize ≤ tail.length := Nat.le_of_not_lt short
      obtain ⟨more, rfl⟩ : f.header <+: tail := by
        refine List.prefix_of_prefix_length_le (List.prefix_append _ _) cut.1 ?_
        rwa [Frame.length_header]
      have size : Frame.sizeWord (f.header ++ more) = f.body.length := by
        rw [Frame.sizeWord, List.take_append_of_le_length (by simp [Frame.headerSize])]
        exact (Frame.words_header fits).1
      have shorter := cut.length_lt
      rw [Frame.length_encode] at shorter
      have brokenOff : BrokenOff (f.header ++ more) := by
        rw [BrokenOff, size]
        exact .inr ⟨fits, shorter⟩
      exact ⟨_, .inBody long brokenOff, .early empty () rfl⟩

/-! ## Whole streams -/

variable {src : Source} {fs : List Frame} {tail : Bytes}

/-- Every complete frame is there, in order and whatever is left over. -/
theorem framed (fits : ∀ f ∈ fs, f.body.length ≤ maxParcelSize) (leftover : Leftover tail)
    (h : src.Gives (fs.flatMap Frame.encode ++ tail)) :
    ∃ stop, Framed src.given src.failure? fs stop ∧ Ended tail () stop := by
  obtain ⟨stop, stops, ended⟩ := leftover.stops
  rw [h.given_eq, h.failure?_eq]
  exact ⟨stop, ⟨fits, tail, rfl, stops⟩, ended⟩

/-- The frames are handed on, and counted if nothing is left over. -/
theorem serve_eq {σ : Type} (handOn : Frame → σ → σ) (s : σ)
    (fits : ∀ f ∈ fs, f.body.length ≤ maxParcelSize) (leftover : Leftover tail)
    (h : src.Gives (fs.flatMap Frame.encode ++ tail)) :
    Ended tail fs.length (src.serve handOn s).1 ∧
      (src.serve handOn s).2 = fs.foldl (fun s f => handOn f s) s := by
  obtain ⟨stop, framed, ended⟩ := h.framed fits leftover
  rw [serve_of_framed framed]
  exact ⟨ended.map fun _ => fs.length, rfl⟩

end Source.Gives

/-! ## Written and read back -/

/-- The call that a frame carries, whatever its flags. -/
def Frame.call (f : Frame) : Call := ⟨f.code, f.body⟩

/-- Hands the call of every whole frame to a dispatcher, whatever its verdict. -/
def Source.serveCalls {σ : Type} (dispatch : Call → σ → Verdict × σ) (src : Source) (s : σ) :
    Except Failure Nat × σ :=
  src.serve (fun f s => (dispatch f.call s).2) s

/-- Frames written to a stream that never fails come back in order from every source that gives the
bytes, and a dispatcher gets their calls. A frame that is read has the bytes that it was read from.
Of every source, whatever it gives and however it ends or fails, the whole frames are read and
handed on, and nothing else. -/
theorem Frame.stream_exact {σ : Type} (dispatch : Call → σ → Verdict × σ) (s : σ) :
    (∀ fs : List Frame, (∀ f ∈ fs, f.body.length ≤ maxParcelSize) →
      (∀ (ρ : Type) (k : Sink ρ) (w : k.Stream), w.Reliable → ∀ t : ρ,
        (writeEach k fs t).1 = fs.map (fun _ => .ok ()) ∧
          w.sent (writeEach k fs t).2 = w.sent t ++ fs.flatMap encode) ∧
      ∀ src : Source, src.Gives (fs.flatMap encode) → src.frames = (fs, .ok ()) ∧
        src.serveCalls dispatch s =
          (.ok fs.length, (fs.map call).foldl (fun s c => (dispatch c s).2) s)) ∧
    (∀ (src rest : Source) (f : Frame), Frame.read src = .ok (some (f, rest)) →
      src.given = f.encode ++ rest.given ∧ rest.failure? = src.failure? ∧
      ∀ (ρ : Type) (k : Sink ρ) (w : k.Stream), w.Reliable → ∀ t : ρ,
        (f.write k t).1 = .ok () ∧ w.sent (f.write k t).2 = w.sent t ++ f.encode) ∧
    (∀ (src : Source) (fs : List Frame) (stop : Except Failure Unit),
      (src.frames = (fs, stop) ↔ Framed src.given src.failure? fs stop) ∧
      (src.frames = (fs, stop) → src.serveCalls dispatch s =
        (stop.map fun _ => fs.length, (fs.map call).foldl (fun s c => (dispatch c s).2) s))) := by
  have served (src : Source) (fs : List Frame) (stop : Except Failure Unit)
      (framed : Framed src.given src.failure? fs stop) : src.serveCalls dispatch s =
        (stop.map fun _ => fs.length, (fs.map call).foldl (fun s c => (dispatch c s).2) s) := by
    rw [Source.serveCalls, Source.serve_of_framed framed, List.foldl_map]
  refine ⟨fun fs fits => ⟨fun ρ k w reliable => reliable.writeEach_eq fits, fun src gives => ?_⟩,
    fun src rest f read => ?_, fun src fs stop => ⟨Source.frames_iff, fun frames => ?_⟩⟩
  · have framed : Framed src.given src.failure? fs (.ok ()) := by
      rw [gives.given_eq, gives.failure?_eq]
      exact ⟨fits, [], (List.append_nil _).symm, .clean rfl⟩
    exact ⟨Source.frames_iff.mpr framed, served src fs _ framed⟩
  · rcases read_cases src with ⟨g, rest', read', fits, given, failure⟩ | ⟨stop, read', -⟩
    · cases read.symm.trans read'
      refine ⟨given, failure, fun ρ k w reliable t => ?_⟩
      have written := reliable.write_eq f t
      rwa [if_pos fits] at written
    · rw [read] at read'
      cases stop <;> cases read'
  · exact served src fs stop (Source.frames_iff.mp frames)

/-- A frame in three reads, one of them interrupted, and the same with a byte too many. -/
theorem Frame.stream_exact_cut :
    let f : Frame := ⟨7, 0, [1, 2]⟩
    let dispatch : Call → List Call → Verdict × List Call := fun c calls =>
      (.notHandled, calls ++ [c])
    let whole : Source := [.bytes [2, 0, 0], .failure ⟨.interrupted, none⟩,
      .bytes [0, 7, 0, 0, 0, 0, 0, 0, 0, 1, 2]]
    let cut : Source := whole ++ [.bytes [9]]
    (f.write (Sink.pipe 4) []).1 = .ok () ∧ (writeEach (Sink.pipe 4) [f] []).1 = [.ok ()] ∧
      whole.serveCalls dispatch [] = (.ok 1, [⟨7, [1, 2]⟩]) ∧
      cut.frames = ([f], .error (.io { kind := .unexpectedEof })) ∧
      cut.serveCalls dispatch [] = (.error (.io { kind := .unexpectedEof }), [⟨7, [1, 2]⟩]) := by
  intro f dispatch whole cut
  obtain ⟨back, exact', every⟩ := Frame.stream_exact dispatch []
  have fits : ∀ g ∈ [f], g.body.length ≤ maxParcelSize := by decide
  obtain ⟨written, served⟩ := back [f] fits
  have bytes : [f].flatMap encode = [2, 0, 0] ++ ([0, 7, 0, 0, 0, 0, 0, 0, 0, 1, 2] ++ []) := by
    decide
  have gives : whole.Gives ([f].flatMap encode) := by
    rw [bytes]
    exact .piece (by decide) (.interrupted rfl (.piece (by decide) .done))
  have framed : Framed cut.given cut.failure? [f] (.error (.io { kind := .unexpectedEof })) :=
    ⟨fits, [9], by decide, .inHeader (by decide) (by decide)⟩
  obtain ⟨framesIff, servedCut⟩ := every cut [f] (.error (.io { kind := .unexpectedEof }))
  have frames := framesIff.mpr framed
  have read : Frame.read whole = .ok (some (f, [])) := by rfl
  have one := (exact' whole [] f read).2.2 Bytes (Sink.pipe 4) Sink.pipe.stream
    Sink.pipe.reliable []
  have each := written Bytes (Sink.pipe 4) Sink.pipe.stream Sink.pipe.reliable []
  exact ⟨one.1, each.1, (served whole gives).2, frames, servedCut frames⟩

end StorageBus
