import StorageBus.Frame.Source

/-!
# Frames on a stream

What reading gives depends on nothing but the bytes in front of the end of a stream, or of its first
failure. However they are cut into pieces, and however often the reads are interrupted, the frames
are the one way to see these bytes as whole frames and some bytes that no whole frame starts with.

## Main definitions

* `Source.given`, `Source.failure?` — the bytes a source gives, and the failure behind them.
* `Stops` — how reading stops at bytes that no whole frame starts with.

## Main results

* `Source.fill_full`, `Source.fill_short` — filling, for every source.
* `Frame.read_cases` — the next frame, or how reading stops.
* `Source.frames_iff` — the frames of every source, and how reading stops behind them.
-/
namespace StorageBus

namespace Source

/-- The bytes of a source up to its end or its first failure. Interruptions do not count. -/
def given : Source → Bytes
  | [] => []
  | .failure e :: src => if e.kind = .interrupted then given src else []
  | .bytes bs :: src => if bs = [] then [] else bs ++ given src

/-- The failure behind these bytes, unless the source ends there. -/
def failure? : Source → Option IoError
  | [] => none
  | .failure e :: src => if e.kind = .interrupted then failure? src else some e
  | .bytes bs :: src => if bs = [] then none else failure? src

section

variable {src : Source} {bs : Bytes}

theorem given_interrupted {e : IoError} (kind : e.kind = .interrupted) :
    given (.failure e :: src) = given src := if_pos kind

theorem failure?_interrupted {e : IoError} (kind : e.kind = .interrupted) :
    failure? (.failure e :: src) = failure? src := if_pos kind

theorem given_bytes (ne : bs ≠ []) : given (.bytes bs :: src) = bs ++ given src := if_neg ne

theorem failure?_bytes (ne : bs ≠ []) : failure? (.bytes bs :: src) = failure? src := if_neg ne

/-- What a piece leaves to the next read. -/
theorem given_pushed : given (if bs = [] then src else .bytes bs :: src) = bs ++ given src := by
  split
  · next none => rw [none, List.nil_append]
  · next some => exact given_bytes some

theorem failure?_pushed :
    failure? (if bs = [] then src else .bytes bs :: src) = failure? src := by
  split
  · rfl
  · next some => exact failure?_bytes some

end

/-! ## Filling -/

theorem fillOnto_full (pieces : List Bytes) (count : Nat) {n : Nat} {src : Source}
    (enough : n ≤ src.given.length) :
    ∃ rest, fillOnto pieces count n src = .full (pieces.reverse.flatten ++ src.given.take n) rest ∧
      rest.given = src.given.drop n ∧ rest.failure? = src.failure? := by
  fun_induction fillOnto pieces count n src with
  | case1 pieces count src => exact ⟨src, by simp, rfl, rfl⟩
  | case2 => cases enough
  | case3 pieces count n e src interrupted ih =>
    rw [given_interrupted interrupted, failure?_interrupted interrupted] at *
    exact ih enough
  | case4 pieces count n e src failed =>
    rw [given, if_neg failed] at enough
    cases enough
  | case5 pieces count n bs src front got none =>
    have empty : bs = [] := by
      simp only [got, front, List.length_take] at none
      exact List.length_eq_zero_iff.mp (by omega)
    rw [given, if_pos empty] at enough
    cases enough
  | case6 pieces count n bs src front got some whole after =>
    simp only [got, front, List.length_take] at some whole
    have ne : bs ≠ [] := List.length_pos_iff.mp (by omega)
    have long : n + 1 ≤ bs.length := by omega
    refine ⟨if after = [] then src else .bytes after :: src, ?_, ?_, ?_⟩
    · rw [given_bytes ne, List.take_append_of_le_length long, List.reverse_cons,
        List.flatten_append, List.flatten_singleton]
    · rw [given_pushed, given_bytes ne, List.drop_append_of_le_length long]
    · rw [failure?_pushed, failure?_bytes ne]
  | case7 pieces count n bs src front got some part ih =>
    simp only [got, front, List.length_take] at some part
    have ne : bs ≠ [] := List.length_pos_iff.mp (by omega)
    -- the piece is used up, and the rest comes from behind it
    have used : front = bs := List.take_of_length_le (by omega)
    have count' : got = bs.length := congrArg List.length used
    clear_value got front
    subst used count'
    rw [given_bytes ne, List.length_append] at enough
    obtain ⟨rest, filled, given, failure⟩ := ih (by omega)
    have whole : front.take (n + 1) = front := List.take_of_length_le (by omega)
    have nothing : front.drop (n + 1) = [] := List.drop_of_length_le (by omega)
    refine ⟨rest, ?_, ?_, ?_⟩
    · rw [filled, given_bytes ne, List.take_append, whole]
      simp
    · rw [given, given_bytes ne, List.drop_append, nothing, List.nil_append]
    · rw [failure, failure?_bytes ne]

theorem fillOnto_short (pieces : List Bytes) (count : Nat) {n : Nat} {src : Source}
    (short : src.given.length < n) :
    fillOnto pieces count n src =
      src.failure?.elim (.ended (count + src.given.length)) .failed := by
  fun_induction fillOnto pieces count n src with
  | case1 => cases short
  | case2 => rfl
  | case3 pieces count n e src interrupted ih =>
    rw [given_interrupted interrupted, failure?_interrupted interrupted] at *
    exact ih short
  | case4 pieces count n e src failed => rw [failure?, if_neg failed, Option.elim]
  | case5 pieces count n bs src front got none =>
    have empty : bs = [] := by
      simp only [got, front, List.length_take] at none
      exact List.length_eq_zero_iff.mp (by omega)
    rw [given, failure?, if_pos empty, if_pos empty]
    rfl
  | case6 pieces count n bs src front got some whole after =>
    simp only [got, front, List.length_take] at some whole
    have ne : bs ≠ [] := List.length_pos_iff.mp (by omega)
    rw [given_bytes ne, List.length_append] at short
    omega
  | case7 pieces count n bs src front got some part ih =>
    simp only [got, front, List.length_take] at some part
    have ne : bs ≠ [] := List.length_pos_iff.mp (by omega)
    have used : front = bs := List.take_of_length_le (by omega)
    have count' : got = bs.length := congrArg List.length used
    clear_value got front
    subst used count'
    rw [given_bytes ne, List.length_append] at short
    rw [ih (by omega), given_bytes ne, failure?_bytes ne, List.length_append, Nat.add_assoc]

variable {n : Nat} {src : Source}

theorem fill_full (enough : n ≤ src.given.length) :
    ∃ rest, src.fill n = .full (src.given.take n) rest ∧ rest.given = src.given.drop n ∧
      rest.failure? = src.failure? := by
  simpa [fill] using fillOnto_full [] 0 enough

theorem fill_short (short : src.given.length < n) :
    src.fill n = src.failure?.elim (.ended src.given.length) .failed := by
  rw [fill, fillOnto_short [] 0 short, Nat.zero_add]

end Source

/-! ## Headers -/

namespace Frame

theorem headerSize_pos : 0 < headerSize := by decide

/-- The size of the body that the first word says. -/
def sizeWord (bytes : Bytes) : Nat := Word.value (bytes.take 4)

/-- The words of a header give the size, the code and the flags back. -/
theorem words_header {f : Frame} (fits : f.body.length ≤ maxParcelSize) :
    sizeWord f.header = f.body.length ∧
      UInt32.ofNat (Word.value ((f.header.drop 4).take 4)) = f.code ∧
      UInt32.ofNat (Word.value (f.header.drop 8)) = f.flags := by
  have size : f.body.length % Word.range 4 = f.body.length :=
    Nat.mod_eq_of_lt (Nat.lt_of_le_of_lt fits (by decide))
  have word (v : UInt32) : UInt32.ofNat (v.toNat % Word.range 4) = v := by
    have small : v.toNat < Word.range 4 := v.toNat_lt
    rw [Nat.mod_eq_of_lt small, UInt32.ofNat_toNat]
  simp [sizeWord, header, List.drop_append, List.drop_of_length_le, Word.value_encode, size, word]

theorem encode_word {four : Bytes} (length : four.length = 4) :
    Word.encode 4 (UInt32.ofNat (Word.value four)).toNat = four := by
  have small : Word.value four < 2 ^ 32 := by
    have := Word.value_lt four
    rwa [length] at this
  rw [UInt32.toNat_ofNat', Nat.mod_eq_of_lt small, ← length, Word.encode_value]

/-- A header is made of its own words. -/
theorem header_of_words {bytes body : Bytes} (length : bytes.length = headerSize)
    (size : body.length = sizeWord bytes) :
    header ⟨UInt32.ofNat (Word.value ((bytes.drop 4).take 4)),
      UInt32.ofNat (Word.value (bytes.drop 8)), body⟩ = bytes := by
  rw [headerSize] at length
  have first : (bytes.take 4).length = 4 := by simp [length]
  have front : Word.encode 4 (sizeWord bytes) = bytes.take 4 := by
    have whole := Word.encode_value (bytes.take 4)
    rwa [first] at whole
  have last : (bytes.drop 4).drop 4 = bytes.drop 8 := by rw [List.drop_drop]
  simp only [header]
  rw [size, front, encode_word (by simp [length]), encode_word (by simp [length]), ← last,
    List.append_assoc, List.take_append_drop, List.take_append_drop]

theorem sizeWord_encode {f : Frame} (fits : f.body.length ≤ maxParcelSize) (more : Bytes) :
    sizeWord (f.encode ++ more) = f.body.length := by
  have long : 4 ≤ f.header.length := by
    rw [length_header]
    decide
  rw [← (words_header fits).1, sizeWord, sizeWord, encode, List.append_assoc,
    List.take_append_of_le_length long]

/-- No frame is the start of another, so bytes start with at most one. -/
theorem encode_append_inj {f g : Frame} (fits : f.body.length ≤ maxParcelSize)
    (fits' : g.body.length ≤ maxParcelSize) {more more' : Bytes}
    (same : f.encode ++ more = g.encode ++ more') : f = g ∧ more = more' := by
  have size : f.body.length = g.body.length := by
    rw [← sizeWord_encode fits more, same, sizeWord_encode fits' more']
  obtain ⟨encoded, rest⟩ := List.append_inj same (by rw [length_encode, length_encode, size])
  obtain ⟨headers, bodies⟩ := List.append_inj encoded (by rw [length_header, length_header])
  obtain ⟨-, code, flags⟩ := words_header fits
  obtain ⟨-, code', flags'⟩ := words_header fits'
  rw [headers] at code flags
  refine ⟨?_, rest⟩
  cases f
  cases g
  rw [mk.injEq]
  exact ⟨code.symm.trans code', flags.symm.trans flags', bodies⟩

end Frame

/-! ## Where reading stops -/

/-- Bytes that end within a header, or within the body that their header says. -/
def BrokenOff (tail : Bytes) : Prop :=
  tail.length < Frame.headerSize ∨
    Frame.sizeWord tail ≤ maxParcelSize ∧ tail.length < Frame.headerSize + Frame.sizeWord tail

/-- How reading stops at bytes behind which the stream ends or fails. -/
inductive Stops (tail : Bytes) : Option IoError → Except Failure Unit → Prop
  | clean (empty : tail.length = 0) : Stops tail none (.ok ())
  | inHeader (nonempty : tail.length ≠ 0) (short : tail.length < Frame.headerSize) :
    Stops tail none (.error (.io { kind := .unexpectedEof }))
  | inBody (long : Frame.headerSize ≤ tail.length) (brokenOff : BrokenOff tail) :
    Stops tail none (.error (.io .shortRead))
  | failed (e : IoError) (brokenOff : BrokenOff tail) : Stops tail (some e) (.error (.io e))
  | tooLarge (failure : Option IoError) (long : Frame.headerSize ≤ tail.length)
    (exceeds : maxParcelSize < Frame.sizeWord tail) :
    Stops tail failure (.error (.tooLarge (Frame.sizeWord tail) maxParcelSize))

namespace Stops

variable {tail : Bytes} {failure : Option IoError} {stop stop' : Except Failure Unit}

theorem unique (h : Stops tail failure stop) (h' : Stops tail failure stop') : stop = stop' := by
  have pos := Frame.headerSize_pos
  cases h <;> cases h' <;> grind [BrokenOff]

/-- Reading does not stop where a whole frame starts. -/
theorem not_encode {f : Frame} (fits : f.body.length ≤ maxParcelSize) {more : Bytes}
    (h : Stops (f.encode ++ more) failure stop) : False := by
  have size := Frame.sizeWord_encode fits more
  have length : (f.encode ++ more).length = Frame.headerSize + f.body.length + more.length := by
    rw [List.length_append, Frame.length_encode]
  have pos := Frame.headerSize_pos
  cases h <;> grind [BrokenOff]

end Stops

namespace Frame

variable {src : Source}

theorem read_of_short (short : src.given.length < headerSize) :
    ∃ stop, Frame.read src = stop.map (fun _ => none) ∧ Stops src.given src.failure? stop := by
  rw [Frame.read, Source.fill_short short]
  cases src.failure? with
  | some e => exact ⟨_, rfl, .failed e (.inl short)⟩
  | none =>
    simp only [Option.elim]
    split
    · next empty => exact ⟨.ok (), rfl, .clean (Source.Filled.ended.inj empty)⟩
    · next count nonempty =>
      have length := Source.Filled.ended.inj nonempty
      exact ⟨_, rfl, .inHeader (by omega) short⟩
    · next failed => cases failed
    · next full => cases full

/-- The next frame with what is behind it, or how reading stops. -/
theorem read_cases (src : Source) :
    (∃ f rest, Frame.read src = .ok (some (f, rest)) ∧ f.body.length ≤ maxParcelSize ∧
      src.given = f.encode ++ rest.given ∧ rest.failure? = src.failure?) ∨
    ∃ stop, Frame.read src = stop.map (fun _ => none) ∧ Stops src.given src.failure? stop := by
  by_cases long : headerSize ≤ src.given.length
  · obtain ⟨mid, header, midGiven, midFailure⟩ := Source.fill_full long
    have length : (src.given.take headerSize).length = headerSize := List.length_take_of_le long
    have size : Word.value ((src.given.take headerSize).take 4) = sizeWord src.given := by
      rw [List.take_take, Nat.min_eq_left (by decide), sizeWord]
    have whole : src.given.length = headerSize + mid.given.length := by
      rw [midGiven, List.length_drop]
      omega
    rw [← midFailure]
    -- from here on everything is about the source behind the header
    simp only [Frame.read, header, size]
    by_cases exceeds : maxParcelSize < sizeWord src.given
    · exact .inr ⟨_, if_pos exceeds, .tooLarge _ long exceeds⟩
    · have fits : sizeWord src.given ≤ maxParcelSize := Nat.le_of_not_lt exceeds
      rw [if_neg exceeds]
      by_cases enough : sizeWord src.given ≤ mid.given.length
      · obtain ⟨rest, body, restGiven, restFailure⟩ := Source.fill_full enough
        have bodyLength := List.length_take_of_le enough
        rw [body]
        refine .inl ⟨_, rest, rfl, Nat.le_trans (Nat.le_of_eq bodyLength) fits, ?_, restFailure⟩
        rw [encode, header_of_words length (bodyLength.trans size.symm), restGiven,
          List.append_assoc, List.take_append_drop, midGiven, List.take_append_drop]
      · have brokenOff : BrokenOff src.given := .inr ⟨fits, by omega⟩
        rw [Source.fill_short (Nat.lt_of_not_le enough)]
        cases mid.failure? with
        | none => exact .inr ⟨_, rfl, .inBody long brokenOff⟩
        | some e => exact .inr ⟨_, rfl, .failed e brokenOff⟩
  · exact .inr (read_of_short (Nat.lt_of_not_le long))

end Frame

/-! ## Whole streams -/

/-- Bytes as whole frames and what is behind them, in front of the end of a stream or a failure. -/
structure Framed (bytes : Bytes) (failure : Option IoError) (fs : List Frame)
    (stop : Except Failure Unit) : Prop where
  fits : ∀ f ∈ fs, f.body.length ≤ maxParcelSize
  stops : ∃ tail, bytes = fs.flatMap Frame.encode ++ tail ∧ Stops tail failure stop

namespace Framed

variable {bytes : Bytes} {failure : Option IoError} {fs gs : List Frame}
  {stop stop' : Except Failure Unit}

theorem nil (stops : Stops bytes failure stop) : Framed bytes failure [] stop where
  fits := by simp
  stops := ⟨bytes, rfl, stops⟩

theorem cons {f : Frame} (fits : f.body.length ≤ maxParcelSize)
    (h : Framed bytes failure fs stop) : Framed (f.encode ++ bytes) failure (f :: fs) stop where
  fits := List.forall_mem_cons.mpr ⟨fits, h.fits⟩
  stops := by
    obtain ⟨tail, rfl, stops⟩ := h.stops
    exact ⟨tail, by rw [List.flatMap_cons, List.append_assoc], stops⟩

/-- There is one way only. -/
theorem unique (h : Framed bytes failure fs stop) (h' : Framed bytes failure gs stop') :
    fs = gs ∧ stop = stop' := by
  obtain ⟨fits, tail, rfl, stops⟩ := h
  obtain ⟨fits', tail', same, stops'⟩ := h'
  -- the first frames are the same, or both ways stop, since nothing stops at a whole frame
  induction fs generalizing gs with
  | nil =>
    rw [List.flatMap_nil, List.nil_append] at same
    cases gs with
    | nil =>
      obtain rfl : tail = tail' := same
      exact ⟨rfl, stops.unique stops'⟩
    | cons g gs =>
      rw [List.flatMap_cons, List.append_assoc] at same
      rw [same] at stops
      exact (stops.not_encode (fits' g List.mem_cons_self)).elim
  | cons f fs ih =>
    rw [List.flatMap_cons, List.append_assoc] at same
    have small := fits f List.mem_cons_self
    cases gs with
    | nil =>
      rw [List.flatMap_nil, List.nil_append] at same
      rw [← same] at stops'
      exact (stops'.not_encode small).elim
    | cons g gs =>
      rw [List.flatMap_cons, List.append_assoc] at same
      obtain ⟨rfl, behind⟩ := Frame.encode_append_inj small (fits' g List.mem_cons_self) same
      obtain ⟨rfl, rfl⟩ := ih (fun f mem => fits f (List.mem_cons_of_mem _ mem))
        (fun g mem => fits' g (List.mem_cons_of_mem _ mem)) behind
      exact ⟨rfl, rfl⟩

end Framed

namespace Source

theorem framed_frames (src : Source) :
    Framed src.given src.failure? src.frames.1 src.frames.2 := by
  fun_induction frames src with
  | case1 src e read =>
    rcases Frame.read_cases src with ⟨f, rest, read', -⟩ | ⟨stop, read', stops⟩
    · cases read.symm.trans read'
    · rw [read] at read'
      cases stop with
      | ok => cases read'
      | error e' =>
        cases read'
        exact .nil stops
  | case2 src read =>
    rcases Frame.read_cases src with ⟨f, rest, read', -⟩ | ⟨stop, read', stops⟩
    · cases read.symm.trans read'
    · rw [read] at read'
      cases stop with
      | ok => exact .nil stops
      | error e' => cases read'
  | case3 src f rest read fs ending more ih =>
    rcases Frame.read_cases src with ⟨g, rest', read', fits, given, failure⟩ | ⟨stop, read', -⟩
    · cases read.symm.trans read'
      rw [more] at ih
      rw [given, ← failure]
      exact .cons fits ih
    · rw [read] at read'
      cases stop <;> cases read'

/-- The frames of a source and how it stops are fixed by its bytes and the failure behind them. -/
theorem frames_iff {src : Source} {fs : List Frame} {stop : Except Failure Unit} :
    src.frames = (fs, stop) ↔ Framed src.given src.failure? fs stop := by
  constructor
  · intro frames
    have framed := src.framed_frames
    rwa [frames] at framed
  · intro framed
    obtain ⟨all, ending⟩ := src.framed_frames.unique framed
    exact Prod.ext all ending

/-- Every whole frame is handed on in order, and nothing else is. -/
theorem serve_of_framed {σ : Type} {src : Source} {fs : List Frame} {stop : Except Failure Unit}
    (framed : Framed src.given src.failure? fs stop) (handOn : Frame → σ → σ) (s : σ) :
    src.serve handOn s = (stop.map fun _ => fs.length, fs.foldl (fun s f => handOn f s) s) := by
  rw [serve, frames_iff.mpr framed]

end Source

end StorageBus
