import StorageBus.Proofs.Codec.RoundTrip
import StorageBus.Proofs.Observation

/-!
# Reads that mark off what they take

No read looks behind the bytes that it takes. Whatever else follows them, it takes the same bytes
and gives the same value, and if some of them are missing it finds too few, for every decision it
makes on the way is made on bytes already taken. This goes for all bytes that can be read, not only
for those that were written, and so a call that is cut short reaches no listener.

## Main definitions

* `MarksOff` — what a read takes at a place, and that nothing else matters to it.
* `Delimits` — a read that marks off what it takes wherever it succeeds.
* `Event.Decodes`, `Event.Malformed` — what becomes of bytes under a code.

## Main results

* `Event.delimits_read` — the arguments of every kind mark off what they take.
* `Event.self_delimiting` — the same for decoding, and for calls that are cut short.
-/
namespace StorageBus

namespace Parcel

variable {α β : Type}

/-- At this place the read takes these bytes off the front of any others and gives the value, and if
any of them are missing it finds too few. -/
structure MarksOff (m : Read α) (width position : Nat) (taken : Bytes) (v : α) : Prop where
  whole : ∀ rest, m ⟨width, position, taken ++ rest⟩ = .ok v ⟨width, position + taken.length, rest⟩
  cut : ∀ k < taken.length, ∃ item need offset left after,
    m ⟨width, position, taken.take k⟩ = .error (.truncated item need offset left) after

/-- Wherever the read succeeds, it marks off what it takes. -/
def Delimits (m : Read α) : Prop :=
  ∀ ⦃width position : Nat⦄ ⦃bytes : Bytes⦄ ⦃v : α⦄ ⦃after : Reader⦄,
    m ⟨width, position, bytes⟩ = .ok v after →
      ∃ taken rest, bytes = taken ++ rest ∧ MarksOff m width position taken v

theorem bind_of_error {ε σ : Type} {m : EStateM ε σ α} {f : α → EStateM ε σ β} {s t : σ} {e : ε}
    (h : m s = .error e t) : (m >>= f) s = .error e t := by
  simp [bind, EStateM.bind, h]

theorem MarksOff.bind {m : Read α} {f : α → Read β} {width position : Nat} {bs cs : Bytes} {a : α}
    {b : β} (h : MarksOff m width position bs a)
    (g : MarksOff (f a) width (position + bs.length) cs b) :
    MarksOff (m >>= f) width position (bs ++ cs) b where
  whole rest := by
    rw [List.append_assoc, bind_of_ok (h.whole (cs ++ rest)), g.whole rest, List.length_append,
      Nat.add_assoc]
  cut k short := by
    rw [List.take_append]
    by_cases early : k < bs.length
    · obtain ⟨item, need, offset, left, after, cut⟩ := h.cut k early
      rw [Nat.sub_eq_zero_of_le (Nat.le_of_lt early), List.take_zero, List.append_nil]
      exact ⟨item, need, offset, left, after, bind_of_error cut⟩
    · have inSecond : k - bs.length < cs.length := by
        rw [List.length_append] at short
        omega
      obtain ⟨item, need, offset, left, after, cut⟩ := g.cut _ inSecond
      refine ⟨item, need, offset, left, after, ?_⟩
      rw [List.take_of_length_le (Nat.le_of_not_lt early), bind_of_ok (h.whole _)]
      exact cut

namespace Delimits

theorem pure (v : α) : Delimits (Pure.pure v : Read α) := by
  intro width position bytes w after ok
  cases ok
  exact ⟨[], bytes, rfl, fun rest => rfl, fun k short => absurd short (Nat.not_lt_zero k)⟩

theorem throw (e : Malformation) : Delimits (throw e : Read α) := by
  intro width position bytes v after ok
  cases ok

theorem bind {m : Read α} {f : α → Read β} (h : Delimits m) (g : ∀ a, Delimits (f a)) :
    Delimits (m >>= f) := by
  intro width position bytes b after ok
  cases first : m ⟨width, position, bytes⟩ with
  | error e t =>
    rw [bind_of_error first] at ok
    cases ok
  | ok a t =>
    obtain ⟨bs, others, rfl, marks⟩ := h first
    rw [bind_of_ok (marks.whole others)] at ok
    obtain ⟨cs, rest, rfl, marks'⟩ := g a ok
    exact ⟨bs ++ cs, rest, (List.append_assoc bs cs rest).symm, marks.bind marks'⟩

theorem map {m : Read α} (h : Delimits m) (f : α → β) : Delimits (do return f (← m)) :=
  h.bind fun a => .pure (f a)

/-- A read that goes by the size of a machine word. -/
theorem get {f : Reader → Read α} (byWidth : ∀ r s : Reader, r.width = s.width → f r = f s)
    (h : ∀ r, Delimits (f r)) : Delimits (get >>= f) := by
  intro width position bytes v after ok
  obtain ⟨taken, rest, rfl, whole, cut⟩ := h _ ok
  have same (bs cs : Bytes) : f ⟨width, position, bs⟩ = f ⟨width, position, cs⟩ :=
    byWidth _ _ rfl
  refine ⟨taken, rest, rfl, fun others => ?_, fun k short => ?_⟩
  · rw [bind_of_ok (m := MonadState.get) rfl]
    exact (congrFun (same _ _) _).trans (whole others)
  · obtain ⟨item, need, offset, left, after, cut⟩ := cut k short
    refine ⟨item, need, offset, left, after, ?_⟩
    rw [bind_of_ok (m := MonadState.get) rfl]
    exact (congrFun (same _ _) _).trans cut

theorem take (item : Shape) (n : Nat) : Delimits (Reader.take item n) := by
  intro width position bytes v after ok
  simp only [Reader.take] at ok
  split at ok
  · next taken rest split =>
    obtain ⟨rfl, rfl⟩ := splitBytes?_eq_some split
    split at ok
    · next inWord =>
      obtain ⟨rfl, -⟩ := EStateM.Result.ok.inj ok
      refine ⟨taken, rest, rfl, fun others => ?_, fun k short => ?_⟩
      · simp only [Reader.take, splitBytes?_append, if_pos inWord]
      · have few : splitBytes? taken.length (taken.take k) = none := by
          rw [splitBytes?_eq_none_iff, List.length_take]
          omega
        simp only [Reader.take, few]
        exact ⟨_, _, _, _, _, rfl⟩
    · cases ok
  · cases ok

/-! ## Items -/

theorem unsignedAs (item : Shape) : Delimits (Reader.unsignedAs item) := (take item 4).map _

theorem int : Delimits Reader.int := (unsignedAs .int).map _

theorem bool : Delimits Reader.bool := int.map _

theorem length? (item : Shape) : Delimits (Reader.length? item) := by
  refine int.bind fun n => ?_
  split
  · exact .pure none
  · split
    · exact .throw _
    · exact .pure _

theorem optionalText : Delimits Reader.optionalText := by
  refine (length? .text).bind fun count => ?_
  cases count with
  | none => exact .pure none
  | some count =>
    refine .get (fun r s same => by simp only [same]) fun r => ?_
    simp only
    split
    · exact .throw _
    · refine (take .text _).bind fun taken => ?_
      split
      · exact .throw _
      · exact .pure _

theorem text : Delimits Reader.text := optionalText.map _

theorem token : Delimits Reader.token := by
  refine optionalText.bind fun descriptor => ?_
  cases descriptor with
  | none => exact .throw _
  | some descriptor => exact .pure descriptor

theorem bytes : Delimits Reader.bytes := by
  refine (length? .bytes).bind fun n => ?_
  cases n with
  | none => exact .pure none
  | some n =>
    refine .get (fun r s same => by simp only [same]) fun r => ?_
    exact (take .bytes _).map _

theorem record (schema : Message.Schema α) : Delimits (Reader.record schema) := by
  refine int.bind fun flag => ?_
  split
  · exact .pure none
  · split
    · refine bytes.bind fun body => ?_
      cases body with
      | none => exact .throw _
      | some body =>
        simp only
        split
        · exact .throw _
        · exact .pure _
    · exact .throw _

/-- A read that gives a value and leaves nothing behind marks off all there is. -/
theorem marksOff {m : Read α} (h : Delimits m) {bytes : Bytes} {v : α} (takes : Takes m bytes v)
    (inWord : bytes.length < 1 <<< 64) : MarksOff m 64 0 bytes v := by
  have all := takes 64 0 [] (by omega)
  rw [List.append_nil] at all
  obtain ⟨taken, rest, rfl, marks⟩ := h all
  have same := EStateM.Result.ok.inj ((marks.whole rest).symm.trans all)
  obtain rfl : rest = [] := congrArg Reader.rest same.2
  rwa [List.append_nil]

end Delimits

end Parcel

open Parcel

namespace Event

/-! ## Decoding -/

theorem delimits_read (k : Kind) : Delimits (read k) := by
  cases k with
  | connectionChanged => exact Delimits.bool.map _
  | stateChanged =>
    refine Delimits.text.bind fun path => ?_
    refine Delimits.text.bind fun oldState => ?_
    exact Delimits.text.map _
  | volumeStateChanged =>
    refine (Delimits.record Volume.schema).bind fun volume => ?_
    refine Delimits.int.bind fun oldState => ?_
    exact Delimits.int.map _
  | volumeRecordChanged => exact (Delimits.record KnownVolume.schema).map _
  | volumeForgotten => exact Delimits.text.map _
  | diskScanned =>
    refine (Delimits.record Disk.schema).bind fun disk => ?_
    exact Delimits.int.map _

/-- The bytes decode under the code to the event, and the first `n` of them are taken for it. -/
def Decodes (code : UInt32) (bytes : Bytes) (e : Event) (n : Nat) : Prop :=
  ∃ k after, Kind.ofCode? code = some k ∧ read k (Reader.ofBytes bytes) = .ok e after ∧
    after.position = n

/-- The code is known, but the bytes are no arguments of its kind. -/
def Malformed (code : UInt32) (bytes : Bytes) : Prop :=
  ∃ text, decode code bytes = .error (.malformed text)

theorem decode_iff {code : UInt32} {bytes : Bytes} {e : Event} :
    decode code bytes = .ok e ↔ ∃ n, Decodes code bytes e n := by
  unfold decode Decodes
  cases Kind.ofCode? code with
  | none => simp
  | some k =>
    cases result : read k (Reader.ofBytes bytes) with
    | error malformation after => simp [decodeArguments, result]
    | ok event after => simp [decodeArguments, result]

theorem Decodes.marksOff {code : UInt32} {bytes : Bytes} {e : Event} {n : Nat}
    (h : Decodes code bytes e n) : ∃ k taken rest, Kind.ofCode? code = some k ∧
      bytes = taken ++ rest ∧ taken.length = n ∧ MarksOff (read k) 64 0 taken e := by
  obtain ⟨k, after, known, ok, rfl⟩ := h
  obtain ⟨taken, rest, rfl, marks⟩ := delimits_read k ok
  have same := EStateM.Result.ok.inj ((marks.whole rest).symm.trans ok)
  refine ⟨k, taken, rest, known, rfl, ?_, marks⟩
  rw [← same.2, Nat.zero_add]

theorem decodeArguments_cut {k : Kind} {taken : Bytes} {e : Event}
    (marks : MarksOff (read k) 64 0 taken e) {m : Nat} (short : m < taken.length) :
    ∃ text, decodeArguments k (taken.take m) = .error (.malformed text) := by
  obtain ⟨item, need, offset, left, after, cut⟩ := marks.cut m short
  refine ⟨(Malformation.truncated item need offset left).message, ?_⟩
  simp only [decodeArguments, Reader.ofBytes, cut]

theorem Decodes.cut {code : UInt32} {bytes : Bytes} {e : Event} {n : Nat}
    (h : Decodes code bytes e n) {m : Nat} (short : m < n) : Malformed code (bytes.take m) := by
  obtain ⟨k, taken, rest, known, rfl, rfl, marks⟩ := h.marksOff
  obtain ⟨text, cut⟩ := decodeArguments_cut marks short
  refine ⟨text, ?_⟩
  rw [List.take_append_of_le_length (Nat.le_of_lt short), decode, known]
  exact cut

theorem Decodes.agree {code : UInt32} {bytes others : Bytes} {e : Event} {n : Nat}
    (h : Decodes code bytes e n) (same : others.take n = bytes.take n) :
    Decodes code others e n := by
  obtain ⟨k, taken, rest, known, rfl, rfl, marks⟩ := h.marksOff
  rw [List.take_left] at same
  have split := List.take_append_drop taken.length others
  rw [same] at split
  have whole := marks.whole (others.drop taken.length)
  rw [split, Nat.zero_add] at whole
  exact ⟨k, _, known, whole, rfl⟩

theorem Decodes.le_length {code : UInt32} {bytes : Bytes} {e : Event} {n : Nat}
    (h : Decodes code bytes e n) : n ≤ bytes.length := by
  obtain ⟨k, taken, rest, known, rfl, rfl, marks⟩ := h.marksOff
  rw [List.length_append]
  exact Nat.le_add_right _ _

theorem decodes_encode {e : Event} (countable : e.Countable) :
    Decodes e.code e.encode.bytes e e.encode.size :=
  ⟨e.kind, _, Kind.ofCode?_code e.kind, (e.round_trip.1 countable).2, rfl⟩

end Event

/-! ## Calls -/

/-- Of a call that is cut short the listener hears nothing. -/
theorem Receiver.receive_cut {σ : Type} (r : Receiver σ) {descriptor : String} {e : Event}
    (countable : Event.CountableText descriptor) (countable' : e.Countable) {m : Nat}
    (short : m < (e.encodeCall descriptor).size) :
    ∃ verdict : Verdict, verdict.isHandled = false ∧
      ∀ s, r.receive e.code ((e.encodeCall descriptor).bytes.take m) s = (verdict, s) := by
  obtain ⟨token, arguments, bytes, -, takes⟩ := e.encodeCall_parts descriptor
  obtain ⟨inWord, takesToken, takesArguments⟩ := takes countable countable'
  have head := Delimits.token.marksOff takesToken (by omega)
  have body := (Event.delimits_read e.kind).marksOff takesArguments (by omega)
  rw [Parcel.size, bytes, List.length_append] at short
  rw [bytes, List.take_append]
  unfold receive
  by_cases early : m < token.length
  · obtain ⟨item, need, offset, left, after, cut⟩ := head.cut m early
    rw [Nat.sub_eq_zero_of_le (Nat.le_of_lt early), List.take_zero, List.append_nil,
      Reader.ofBytes, cut]
    exact ⟨_, rfl, fun s => rfl⟩
  · obtain ⟨text, cut⟩ := Event.decodeArguments_cut body (m := m - token.length) (by omega)
    rw [List.take_of_length_le (Nat.le_of_not_lt early), Reader.ofBytes, head.whole]
    by_cases own : descriptor = r.descriptor
    · refine ⟨.failed (.malformed text), rfl, fun s => ?_⟩
      simp only [dispatch, own, ne_eq, not_true_eq_false, if_false, Event.code,
        Event.Kind.ofCode?_code, cut]
    · refine ⟨.rejected (.interfaceMismatch r.descriptor descriptor), rfl, fun s => ?_⟩
      simp only [dispatch, ne_eq, own, not_false_eq_true, if_true]

/-- Decoding takes as many bytes as it does for any bytes that agree on them, and finds fewer
malformed. So every strict prefix of the encoding of an event is malformed under its code, and no
strict prefix of a call makes any receiver call its listener. -/
theorem Event.self_delimiting :
    (∀ code bytes e, decode code bytes = .ok e ↔ ∃ n, Decodes code bytes e n) ∧
    (∀ code bytes e n, Decodes code bytes e n → n ≤ bytes.length ∧
      (∀ others : Bytes, others.take n = bytes.take n → Decodes code others e n) ∧
      ∀ m < n, Malformed code (bytes.take m)) ∧
    (∀ e : Event, e.Countable → ∀ m < e.encode.size, Malformed e.code (e.encode.bytes.take m)) ∧
    ∀ (σ ν : Type) (r : Receiver σ) (note : Event → ν) (descriptor : String) (e : Event),
      CountableText descriptor → e.Countable → ∀ m < (e.encodeCall descriptor).size,
        ∃ verdict : Verdict, verdict.isHandled = false ∧ ∀ notes s,
          (r.noting note).receive e.code ((e.encodeCall descriptor).bytes.take m) (notes, s) =
            (verdict, notes, s) := by
  refine ⟨fun code bytes e => decode_iff, fun code bytes e n decodes => ?_, ?_, ?_⟩
  · exact ⟨decodes.le_length, fun others => decodes.agree, fun m => decodes.cut⟩
  · intro e countable m short
    exact (decodes_encode countable).cut short
  · intro σ ν r note descriptor e countable countable' m short
    obtain ⟨verdict, unhandled, receive⟩ :=
      (r.noting note).receive_cut countable countable' short
    exact ⟨verdict, unhandled, fun notes s => receive (notes, s)⟩

/-- A truth value that is no proper one, with bytes behind it, and calls that are cut short. -/
theorem Event.self_delimiting_two : Decodes 1 [2, 0, 0, 0, 9] (.connectionChanged true) 4 ∧
    Decodes 1 [2, 0, 0, 0] (.connectionChanged true) 4 ∧ Malformed 1 [2, 0, 0] ∧
    Malformed 1 [1, 0] ∧
    ∃ verdict : Verdict, verdict.isHandled = false ∧
      (Receiver.noting { listener := Listener.idle Unit } (fun e => e)).receive 1
        ((encodeCall "a" (.connectionChanged true)).bytes.take 9) ([], ()) = (verdict, [], ()) := by
  obtain ⟨-, agree, prefixes, calls⟩ := Event.self_delimiting
  have decodes : Decodes 1 [2, 0, 0, 0, 9] (.connectionChanged true) 4 :=
    ⟨.connectionChanged, ⟨64, 4, [9]⟩, rfl, rfl, rfl⟩
  obtain ⟨-, others, cut⟩ := agree _ _ _ _ decodes
  have countable : CountableText "a" := by
    unfold CountableText
    decide
  obtain ⟨verdict, unhandled, receive⟩ := calls Unit Event { listener := Listener.idle Unit }
    (fun e => e) "a" (.connectionChanged true) countable trivial 9 (by decide)
  exact ⟨decodes, others [2, 0, 0, 0] rfl, cut 3 (by decide),
    prefixes (.connectionChanged true) trivial 2 (by decide), verdict, unhandled, receive [] ()⟩

end StorageBus
