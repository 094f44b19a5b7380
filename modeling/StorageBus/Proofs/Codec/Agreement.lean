import StorageBus.Proofs.Codec.Guarded

/-!
# Reads that never stop

In words of more than 32 bits no guarded read stops at a sum, a difference, a slice or an index,
whatever the bytes are. It gives what the reader without such looks gives, or fails for the same
reason, and the place behind it lies within the bytes, on the four-byte grid and not in front of the
place before it. The reads of all items but texts do so in words of 32 bits as well.

## Main definitions

* `Agree`, `Agrees` — a guarded read that fails or gives a value exactly as the other read does.
* `readThrough` — reads one after the other, also behind reads that failed.

## Main results

* `Agrees.bind`, `Agrees.take` — steps of reads that agree.
* `Agrees.bytes`, `Agrees.textOf`, `Agrees.record`, … — the reads of items.
* `Guarded.reads_within` — any reads of any bytes.
-/
namespace StorageBus.Parcel

variable {α β : Type}

/-! ## The place of a cursor -/

namespace Cursor

/-- The cursor stands within the bytes and on the four-byte grid. -/
structure Placed (c : Cursor) : Prop where
  within : c.position ≤ c.data.length
  aligned : c.position % 4 = 0

/-- A place to go on at. -/
structure Reaches (c : Cursor) (next : Nat) : Prop where
  onward : c.position ≤ next
  placed : Placed ⟨c.data, next⟩

/-- The reader that stands at the same place. -/
def reader (width : Nat) (c : Cursor) : Reader := ⟨width, c.position, c.data.drop c.position⟩

theorem Placed.reaches {c : Cursor} (placed : c.Placed) : c.Reaches c.position :=
  ⟨Nat.le_refl _, placed⟩

theorem Reaches.trans {c : Cursor} {next last : Nat} (h : c.Reaches next)
    (g : Reaches ⟨c.data, next⟩ last) : c.Reaches last :=
  ⟨Nat.le_trans h.onward g.onward, g.placed⟩

end Cursor

/-! ## Reads that agree -/

/-- What two readers come to at the same place: a value, or the same reason that there is none. -/
inductive Agree (width : Nat) (c : Cursor) (post : α → Prop) :
    EStateM.Result Stop Cursor α → EStateM.Result Malformation Reader α → Prop
  | ok {next : Nat} {v : α} (reaches : c.Reaches next) (holds : post v) :
    Agree width c post (.ok v ⟨c.data, next⟩) (.ok v (Cursor.reader width ⟨c.data, next⟩))
  | error {next : Nat} {e : Malformation} (reaches : c.Reaches next)
    (found : ∀ i n, e ≠ .overrun i n) :
    Agree width c post (.error (.malformed e) ⟨c.data, next⟩)
      (.error e (Cursor.reader width ⟨c.data, next⟩))

theorem Agree.behind {width : Nat} {c : Cursor} {post : α → Prop} {next : Nat}
    {x : EStateM.Result Stop Cursor α} {y : EStateM.Result Malformation Reader α}
    (reaches : c.Reaches next) (h : Agree width ⟨c.data, next⟩ post x y) :
    Agree width c post x y := by
  cases h with
  | ok reaches' holds => exact .ok (reaches.trans reaches') holds
  | error reaches' found => exact .error (reaches.trans reaches') found

/-- Of a buffer that words can count the two reads come to the same, and a value is of some kind. -/
def Agrees (m : Machine) (post : α → Prop) (guarded : Guarded α) (read : Read α) : Prop :=
  ∀ c : Cursor, c.data.length < m.size → c.Placed →
    Agree m.width c post (guarded c) (read (c.reader m.width))

namespace Agrees

variable {m : Machine} {post : α → Prop} {last : β → Prop} {guarded : Guarded α} {read : Read α}

theorem pure {v : α} (holds : post v) : Agrees m post (Pure.pure v) (Pure.pure v) :=
  fun _ _ placed => .ok placed.reaches holds

theorem throw {e : Malformation} (found : ∀ i n, e ≠ .overrun i n) :
    Agrees m post (throw (.malformed e)) (throw e) :=
  fun _ _ placed => .error placed.reaches found

theorem bind {f : α → Guarded β} {g : α → Read β} (first : Agrees m post guarded read)
    (second : ∀ v, post v → Agrees m last (f v) (g v)) :
    Agrees m last (guarded >>= f) (read >>= g) := by
  intro c short placed
  have one := first c short placed
  generalize guardedEq : guarded c = x at one
  generalize readEq : read (c.reader m.width) = y at one
  cases one with
  | @ok next v reaches holds =>
    rw [bind_of_ok guardedEq, bind_of_ok readEq]
    exact (second v holds ⟨c.data, next⟩ short reaches.placed).behind reaches
  | error reaches found =>
    rw [bind_of_error guardedEq, bind_of_error readEq]
    exact .error reaches found

theorem map (h : Agrees m post guarded read) (f : α → β) :
    Agrees m (fun _ => True) (do return f (← guarded)) (do return f (← read)) :=
  h.bind fun _ _ => pure trivial

/-- A read that goes by the size of a machine word. -/
theorem get {g : Reader → Read α} (h : ∀ r, r.width = m.width → Agrees m post guarded (g r)) :
    Agrees m post guarded (get >>= g) := by
  intro c short placed
  rw [bind_of_ok (m := MonadState.get) rfl]
  exact h (c.reader m.width) rfl c short placed

end Agrees

namespace Agrees

variable {m : Machine}

open Guarded

theorem take (item : Shape) {n : Nat} (aligned : n % 4 = 0) :
    Agrees m (fun bs => bs.length = n) (Guarded.take m item n) (Reader.take item n) := by
  intro c short placed
  have within := placed.within
  have onGrid := placed.aligned
  by_cases fits : c.position + n ≤ c.data.length
  · have length : ((c.data.drop c.position).take n).length = n := by
      rw [List.length_take, List.length_drop]
      omega
    have split : splitBytes? n (c.data.drop c.position) =
        some ((c.data.drop c.position).take n, c.data.drop (c.position + n)) := by
      rw [splitBytes?, if_pos length, List.drop_drop]
    have read : Reader.take item n (c.reader m.width) =
        .ok ((c.data.drop c.position).take n)
          (Cursor.reader m.width ⟨c.data, c.position + n⟩) := by
      simp only [Reader.take, Cursor.reader, split]
      exact if_pos (Nat.lt_of_le_of_lt fits short)
    rw [take_of_le item fits short, read]
    refine .ok ⟨Nat.le_add_right _ _, fits, ?_⟩ length
    show (c.position + n) % 4 = 0
    omega
  · have few : splitBytes? n (c.data.drop c.position) = none := by
      rw [splitBytes?_eq_none_iff, List.length_drop]
      omega
    have read : Reader.take item n (c.reader m.width) =
        .error (.truncated item n c.position (c.data.length - c.position)) (c.reader m.width) := by
      simp only [Reader.take, Cursor.reader, few, Reader.remaining, List.length_drop]
    rw [take_of_not_le item fits within, read]
    exact .error placed.reaches (by simp)

/-! ### Numbers -/

theorem unsignedAs (item : Shape) :
    Agrees m (fun _ => True) (Guarded.unsignedAs m item) (Reader.unsignedAs item) := by
  refine (take item (n := 4) rfl).bind fun bs length => ?_
  match bs, length with
  | [_, _, _, _], _ => exact pure trivial

theorem unsigned : Agrees m (fun _ => True) (Guarded.unsigned m) Reader.unsigned :=
  unsignedAs .unsigned

theorem int : Agrees m (fun _ => True) (Guarded.int m) Reader.int := (unsignedAs .int).map _

theorem long : Agrees m (fun _ => True) (Guarded.long m) Reader.long := by
  refine (take .long (n := 8) rfl).bind fun bs length => ?_
  rw [copied, if_pos length, pure_bind]
  exact pure trivial

theorem bool : Agrees m (fun _ => True) (Guarded.bool m) Reader.bool := int.map _

/-! ### Byte arrays -/

theorem length? (item : Shape) :
    Agrees m (fun v => ∀ n ∈ v, n < 1 <<< 31) (Guarded.length? m item) (Reader.length? item) := by
  refine int.bind fun n _ => ?_
  by_cases none : n = absent
  · rw [if_pos none, if_pos none]
    exact pure (by simp)
  · rw [if_neg none, if_neg none]
    by_cases negative : n < 0
    · rw [if_pos negative, if_pos negative]
      exact throw (by simp)
    · rw [if_neg negative, if_neg negative]
      refine pure ?_
      have high := n.toInt_lt
      simp only [Option.mem_some_iff, forall_eq']
      omega

theorem bytes (wide : 32 ≤ m.width) :
    Agrees m (fun _ => True) (Guarded.bytes m) Reader.bytes := by
  refine (length? .bytes).bind fun v counted => ?_
  cases v with
  | none => exact pure trivial
  | some n =>
    have small := counted n rfl
    have longer := le_roundUp n
    refine .get fun r width => ?_
    have room := m.le_size wide
    have inWord : n + 3 < m.size := by omega
    simp only [roundUp_of_lt inWord, pure_bind, width, roundUpWithin_of_lt inWord]
    refine (take .bytes (roundUp_mod_four n)).bind fun taken length => ?_
    rw [slice_of_le (Nat.zero_le _) (length ▸ longer), pure_bind, List.drop_zero]
    exact pure trivial

/-! ### Texts -/

/-- The sum that rounds the size of a text up is not checked. It is right if the size itself is
refused or has room for it. -/
theorem textOf {count : Nat}
    (room : ∀ size ∈ Reader.textSize? m.width count, size + 3 < m.size) :
    Agrees m (fun _ => True)
      (do
        let (size, taken) ← textBytes m count
        return some (← textWithin count size taken))
      (do
        let width := (← MonadState.get).width
        match Reader.textSize? width count with
        | none => MonadExcept.throw .textTooLong
        | some size =>
          let taken ← Reader.take .text (Reader.roundUpWithin width size)
          match Reader.terminated count (Reader.units (taken.take size)) with
          | .error e => MonadExcept.throw e
          | .ok text => return some text) := by
  refine .get fun r width => ?_
  simp only [width]
  cases sized : Reader.textSize? m.width count with
  | none =>
    rw [textBytes_of_none sized]
    exact throw (by simp)
  | some size =>
    have inWord := room size sized
    obtain rfl := eq_of_textSize? sized
    have longer := le_roundUp ((count + 1) * 2)
    simp only [textBytes_of_some sized inWord, bind_assoc, pure_bind, roundUpWithin_of_lt inWord]
    refine (take .text (roundUp_mod_four _)).bind fun taken length => ?_
    have enough : (count + 1) * 2 ≤ taken.length := length ▸ longer
    rw [textWithin_eq enough]
    cases read : Reader.terminated count (Reader.units (taken.take ((count + 1) * 2))) with
    | error e => exact throw (terminated_ne_overrun (lt_length_units enough) read)
    | ok text => exact pure trivial

theorem optionalText (wide : 32 < m.width) :
    Agrees m (fun _ => True) (Guarded.optionalText m) Reader.optionalText := by
  refine (length? .text).bind fun v counted => ?_
  cases v with
  | none => exact pure trivial
  | some count =>
    have small := counted count rfl
    have large := m.le_size wide
    refine textOf fun size sized => ?_
    obtain rfl := eq_of_textSize? sized
    omega

theorem text (wide : 32 < m.width) :
    Agrees m (fun _ => True) (Guarded.text m) Reader.text := (optionalText wide).map _

theorem token (wide : 32 < m.width) :
    Agrees m (fun _ => True) (Guarded.token m) Reader.token := by
  refine (optionalText wide).bind fun v _ => ?_
  cases v with
  | none => exact throw (by simp)
  | some descriptor => exact pure trivial

/-! ### Records -/

theorem record (wide : 32 ≤ m.width) (schema : Message.Schema α) :
    Agrees m (fun _ => True) (Guarded.record m schema) (Reader.record schema) := by
  refine int.bind fun flag _ => ?_
  by_cases zero : flag = 0
  · rw [if_pos zero, if_pos zero]
    exact pure trivial
  · rw [if_neg zero, if_neg zero]
    by_cases one : flag = 1
    · rw [if_pos one, if_pos one]
      refine (bytes wide).bind fun body _ => ?_
      cases body with
      | none => exact throw (by simp)
      | some body =>
        simp only
        cases schema.decode body with
        | error e => exact throw (by simp)
        | ok record => exact pure trivial
    · rw [if_neg one, if_neg one]
      exact throw (by simp)

theorem read (wide : 32 < m.width) (type : ItemType) :
    Agrees m (fun _ => True) (type.readGuarded m) type.read := by
  have notNarrow := Nat.le_of_lt wide
  cases type with
  | int => exact int.map _
  | unsigned => exact unsigned.map _
  | long => exact long.map _
  | bool => exact bool.map _
  | text => exact (text wide).map _
  | optionalText => exact (optionalText wide).map _
  | bytes => exact (bytes notNarrow).map _
  | token => exact (token wide).map _
  | disk => exact (record notNarrow Disk.schema).map _
  | volume => exact (record notNarrow Volume.schema).map _
  | knownVolume => exact (record notNarrow KnownVolume.schema).map _

end Agrees

/-! ## Reads one after the other -/

/-- The answer of a read, with the state behind it. -/
def answered {ε σ : Type} : EStateM.Result ε σ α → Except ε α × σ
  | .ok v s => (.ok v, s)
  | .error e s => (.error e, s)

/-- Reads an item of each type, also behind reads that failed. -/
def readThrough {ε σ : Type} (read : ItemType → EStateM ε σ Item) :
    List ItemType → σ → List (Except ε Item × σ)
  | [], _ => []
  | type :: types, s =>
    let (answer, t) := answered (read type s)
    (answer, t) :: readThrough read types t

/-- The answer of a read, with the place behind it. -/
structure Reading where
  answer : Except Malformation Item
  next : Nat

namespace Reading

/-- The reading as a guarded read gives it. -/
def guarded (data : Bytes) (r : Reading) : Except Stop Item × Cursor :=
  (r.answer.mapError .malformed, ⟨data, r.next⟩)

/-- The reading as it is given in words of `width` bits. -/
def plain (width : Nat) (data : Bytes) (r : Reading) : Except Malformation Item × Reader :=
  (r.answer, ⟨width, r.next, data.drop r.next⟩)

end Reading

theorem Agree.exists_reading {width : Nat} {c : Cursor} {post : Item → Prop}
    {x : EStateM.Result Stop Cursor Item} {y : EStateM.Result Malformation Reader Item}
    (h : Agree width c post x y) :
    ∃ r : Reading, answered x = r.guarded c.data ∧ answered y = r.plain width c.data ∧
      c.Reaches r.next ∧ ∀ i n, r.answer ≠ .error (.overrun i n) := by
  cases h with
  | @ok next v reaches holds => exact ⟨⟨.ok v, next⟩, rfl, rfl, reaches, by simp⟩
  | @error next e reaches found => exact ⟨⟨.error e, next⟩, rfl, rfl, reaches, by simpa using found⟩

theorem readThrough_agree {m : Machine} (wide : 32 < m.width) (types : List ItemType) {c : Cursor}
    (short : c.data.length < m.size) (placed : c.Placed) :
    ∃ readings : List Reading,
      readThrough (ItemType.readGuarded m) types c = readings.map (Reading.guarded c.data) ∧
      readThrough ItemType.read types (c.reader m.width) =
        readings.map (Reading.plain m.width c.data) ∧
      (c.position :: readings.map Reading.next).IsChain (· ≤ ·) ∧
      ∀ r ∈ readings, Cursor.Placed ⟨c.data, r.next⟩ ∧ ∀ i n, r.answer ≠ .error (.overrun i n) := by
  induction types generalizing c with
  | nil => exact ⟨[], rfl, rfl, .singleton _, by simp⟩
  | cons type types ih =>
    obtain ⟨r, guarded, plain, reaches, found⟩ :=
      (Agrees.read wide type c short placed).exists_reading
    obtain ⟨readings, guarded', plain', chain, sound⟩ :=
      ih (c := ⟨c.data, r.next⟩) short reaches.placed
    refine ⟨r :: readings, ?_, ?_, .cons_cons reaches.onward chain, ?_⟩
    · rw [readThrough, guarded]
      exact congrArg (List.cons _) guarded'
    · rw [readThrough, plain]
      exact congrArg (List.cons _) plain'
    · rintro s (_ | ⟨_, mem⟩)
      · exact ⟨reaches.placed, found⟩
      · exact sound s mem

/-- Reads of any bytes in words of more than 32 bits, also behind reads that failed. None of them
stops at a sum, a difference, a slice or an index, so each gives what the unguarded read gives, or
is malformed as that one is. The places behind them lie on the four-byte grid, ascend and stay
within the bytes, and what remains there can be computed. -/
theorem Guarded.reads_within {m : Machine} (wide : 32 < m.width) {data : Bytes}
    (short : data.length < m.size) (types : List ItemType) :
    ∃ readings : List Reading,
      readThrough (ItemType.readGuarded m) types ⟨data, 0⟩ =
        readings.map (fun r => (r.answer.mapError .malformed, ⟨data, r.next⟩)) ∧
      readThrough ItemType.read types ⟨m.width, 0, data⟩ =
        readings.map (fun r => (r.answer, ⟨m.width, r.next, data.drop r.next⟩)) ∧
      (0 :: readings.map Reading.next).IsChain (· ≤ ·) ∧
      (∀ next ∈ 0 :: readings.map Reading.next, next % 4 = 0 ∧ next ≤ data.length ∧
        remaining m ⟨data, next⟩ = .ok (data.length - next) ⟨data, next⟩) ∧
      ∀ r ∈ readings, ∀ i n, r.answer ≠ .error (.overrun i n) := by
  have start : Cursor.Placed ⟨data, 0⟩ := ⟨Nat.zero_le _, rfl⟩
  obtain ⟨readings, guarded, plain, chain, sound⟩ := readThrough_agree wide types short start
  refine ⟨readings, guarded, plain, chain, ?_, fun r mem => (sound r mem).2⟩
  have placed : ∀ next ∈ 0 :: readings.map Reading.next, Cursor.Placed ⟨data, next⟩ := by
    intro next mem
    rcases List.mem_cons.mp mem with rfl | behind
    · exact start
    · obtain ⟨r, among, rfl⟩ := List.mem_map.mp behind
      exact (sound r among).1
  intro next mem
  have at' := placed next mem
  exact ⟨at'.aligned, at'.within, remaining_eq at'.within⟩

/-- A text that claims more units than there are, and reads that go on behind its count, on a
machine that stops at what no word holds. -/
theorem Guarded.reads_within_claimed :
    let m : Machine := ⟨64, false⟩
    let data : Bytes := [254, 255, 255, 127, 0, 0, 0, 0]
    let types : List ItemType := [.text, .bytes, .int]
    32 < m.width ∧ data.length < m.size ∧ ∃ readings : List Reading,
      readThrough (ItemType.readGuarded m) types ⟨data, 0⟩ =
        readings.map (fun r => (r.answer.mapError .malformed, ⟨data, r.next⟩)) ∧
      readings.map Reading.next = [4, 8, 8] := by
  intro m data types
  have wide : 32 < m.width := by decide
  have short : data.length < m.size := by decide
  obtain ⟨readings, guarded, -⟩ := Guarded.reads_within wide short types
  refine ⟨wide, short, readings, guarded, ?_⟩
  have computed : (readThrough (ItemType.readGuarded m) types ⟨data, 0⟩).map (·.2.position) =
      [4, 8, 8] := by
    decide
  rw [guarded, List.map_map] at computed
  exact computed

end StorageBus.Parcel
