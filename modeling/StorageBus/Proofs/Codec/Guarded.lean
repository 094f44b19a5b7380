import StorageBus.Parcel.Item
import StorageBus.Proofs.Codec.Form

/-!
# Reads that look before they compute

A reader on a machine: it stands at a place of a buffer, computes the ends of items in machine words
and cuts them out. Here every sum and difference that no check goes before, every slice and every
index is looked at, and the read stops at the first that has no value: a sum that no word holds, a
difference below zero, a slice or an index outside of what it is taken of. A machine may also go on
modulo the size of its words.

## Main definitions

* `Machine`, `Cursor`, `Guarded` — words of some width, a place in a buffer, and reads that stop.
* `Guarded.take`, `Guarded.optionalText`, … — one read per item, and `ItemType.readGuarded`.

## Main results

* `Guarded.roundUp_of_lt` — rounding up by a mask, where the sum fits into a word.
* `Guarded.take_of_le`, `Guarded.take_of_not_le` — what is taken from a place within the bytes.
* `Guarded.textWithin_eq` — the text in bytes that are enough for it.
-/
namespace StorageBus.Parcel

variable {α : Type}

/-! ## Machines -/

/-- A machine with words of `width` bits. Sums and differences without a check wrap, or else it
stops at those that a word does not hold. -/
structure Machine where
  width : Nat := 64
  wraps : Bool := true
deriving DecidableEq, Repr

namespace Machine

/-- How many numbers a word holds. -/
def size (m : Machine) : Nat := 1 <<< m.width

def sum? (m : Machine) (a b : Nat) : Option Nat := if a + b < m.size then some (a + b) else none

def product? (m : Machine) (a b : Nat) : Option Nat := if a * b < m.size then some (a * b) else none

theorem le_size {m : Machine} {width : Nat} (wide : width ≤ m.width) : 1 <<< width ≤ m.size := by
  rw [size, Nat.one_shiftLeft, Nat.one_shiftLeft]
  exact Nat.pow_le_pow_right (by decide) wide

/-- The checks on the size of a text, one after the other. -/
theorem textSize?_eq (m : Machine) (count : Nat) :
    (m.sum? count 1).bind (m.product? · 2) = Reader.textSize? m.width count := by
  simp only [sum?, product?, Reader.textSize?, size]
  by_cases fits : count + 1 < 1 <<< m.width <;>
    by_cases doubled : (count + 1) * 2 < 1 <<< m.width <;> simp [fits, doubled]

end Machine

/-! ## Guarded reads -/

/-- Why a guarded read gives no value. -/
inductive Stop where
  | malformed (m : Malformation)
  /-- A sum that no word holds, or a difference below zero. -/
  | overflow
  /-- A slice or an index that does not lie within so many bytes or units. -/
  | outside (index size : Nat)
deriving DecidableEq, Repr

/-- A place in a buffer. -/
structure Cursor where
  data : Bytes
  position : Nat := 0
deriving DecidableEq, Repr

/-- A read that looks before it computes. -/
abbrev Guarded (α : Type) := EStateM Stop Cursor α

namespace Guarded

variable (m : Machine)

def sum (a b : Nat) : Guarded Nat :=
  match m.sum? a b with
  | some n => return n
  | none => if m.wraps then return (a + b) % m.size else throw .overflow

def difference (a b : Nat) : Guarded Nat :=
  if b ≤ a then return a - b
  else if m.wraps then return (a + m.size - b) % m.size
  else throw .overflow

/-- What stands from the index `start` on before the index `stop`. -/
def slice (start stop : Nat) (xs : List α) : Guarded (List α) :=
  if start ≤ stop ∧ stop ≤ xs.length then return (xs.take stop).drop start
  else throw (.outside stop xs.length)

def index (i : Nat) (xs : List α) : Guarded α :=
  match xs[i]? with
  | some x => return x
  | none => throw (.outside i xs.length)

/-- All of the bytes, for which there is room for exactly `n`. -/
def copied (n : Nat) (bs : Bytes) : Guarded Bytes :=
  if bs.length = n then return bs else throw (.outside n bs.length)

/-- Three more, with the two low bits cleared. -/
def roundUp (n : Nat) : Guarded Nat := do
  let above ← sum m n 3
  return (BitVec.ofNat m.width above &&& ~~~BitVec.ofNat m.width 3).toNat

def remaining : Guarded Nat := do
  let c ← get
  difference m c.data.length c.position

/-- The next `n` bytes. -/
def take (item : Shape) (n : Nat) : Guarded Bytes := do
  let c ← get
  match (m.sum? c.position n).filter (· ≤ c.data.length) with
  | none =>
    let left ← remaining m
    throw (.malformed (.truncated item n c.position left))
  | some stop =>
    let taken ← slice c.position stop c.data
    set { c with position := stop }
    return taken

/-! ### Numbers -/

def unsignedAs (item : Shape) : Guarded UInt32 := do
  let bs ← take m item 4
  let word := [← index 0 bs, ← index 1 bs, ← index 2 bs, ← index 3 bs]
  return UInt32.ofNat (Word.value word)

def unsigned : Guarded UInt32 := unsignedAs m .unsigned

def int : Guarded Int32 := do return (← unsignedAs m .int).toInt32

def long : Guarded Int64 := do
  let bs ← take m .long 8
  let word ← copied 8 bs
  return (UInt64.ofNat (Word.value word)).toInt64

def bool : Guarded Bool := do return (← int m) != 0

/-! ### Texts and byte arrays -/

def length? (item : Shape) : Guarded (Option Nat) := do
  let n ← int m
  if n = absent then return none
  else if n < 0 then throw (.malformed (.negativeLength item n))
  else return some n.toInt.toNat

/-- The bytes of `count` units with their terminator, and what is taken for them. -/
def textBytes (count : Nat) : Guarded (Nat × Bytes) := do
  match (m.sum? count 1).bind (m.product? · 2) with
  | none => throw (.malformed .textTooLong)
  | some size =>
    let padded ← roundUp m size
    let taken ← take m .text padded
    return (size, taken)

/-- The text of `count` units, which has so many bytes and stands in front of those taken. -/
def textWithin (count size : Nat) (taken : Bytes) : Guarded String := do
  let content ← slice 0 size taken
  let us := Reader.units content
  let terminator ← index count us
  if terminator ≠ 0 then throw (.malformed .missingTerminator)
  else
    let before ← slice 0 count us
    match Text.Utf16.decode before with
    | none => throw (.malformed .loneSurrogate)
    | some text => return text

def optionalText : Guarded (Option String) := do
  match ← length? m .text with
  | none => return none
  | some count =>
    let (size, taken) ← textBytes m count
    return some (← textWithin count size taken)

def text : Guarded String := do return (← optionalText m).getD ""

def bytes : Guarded (Option Bytes) := do
  match ← length? m .bytes with
  | none => return none
  | some n =>
    let padded ← roundUp m n
    let taken ← take m .bytes padded
    return some (← slice 0 n taken)

def token : Guarded String := do
  match ← optionalText m with
  | none => throw (.malformed .absentToken)
  | some descriptor => return descriptor

/-! ### Records -/

def record (schema : Message.Schema α) : Guarded (Option α) := do
  let flag ← int m
  if flag = 0 then return none
  else if flag = 1 then
    match ← bytes m with
    | none => throw (.malformed .absentBody)
    | some body =>
      match schema.decode body with
      | .error e => throw (.malformed (.badMessage e))
      | .ok record => return some record
  else throw (.malformed (.badFlag flag))

end Guarded

/-- Reads one item of the type. -/
def ItemType.readGuarded (m : Machine) : ItemType → Guarded Item
  | int => return .int (← Guarded.int m)
  | unsigned => return .unsigned (← Guarded.unsigned m)
  | long => return .long (← Guarded.long m)
  | bool => return .bool (← Guarded.bool m)
  | text => return .text (← Guarded.text m)
  | optionalText => return .optionalText (← Guarded.optionalText m)
  | bytes => return .bytes (← Guarded.bytes m)
  | token => return .token (← Guarded.token m)
  | disk => return .disk (← Guarded.record m Disk.schema)
  | volume => return .volume (← Guarded.record m Volume.schema)
  | knownVolume => return .knownVolume (← Guarded.record m KnownVolume.schema)

/-! ## Looks that find nothing wrong -/

namespace Guarded

variable {m : Machine}

theorem difference_of_le {a b : Nat} (le : b ≤ a) : difference m a b = pure (a - b) := if_pos le

theorem slice_of_le {start stop : Nat} {xs : List α} (ordered : start ≤ stop)
    (within : stop ≤ xs.length) : slice start stop xs = pure ((xs.take stop).drop start) :=
  if_pos ⟨ordered, within⟩

theorem index_of_lt {i : Nat} {xs : List α} (within : i < xs.length) :
    index i xs = pure xs[i] := by
  rw [index, List.getElem?_eq_getElem within]

/-- A mask that clears the two low bits of a word. -/
theorem toNat_cleared {width n : Nat} (small : n < 1 <<< width) :
    (BitVec.ofNat width n &&& ~~~BitVec.ofNat width 3).toNat = n / 4 * 4 := by
  rw [Nat.one_shiftLeft] at small
  have shifted : n / 4 * 4 = n >>> 2 <<< 2 := by
    rw [Nat.shiftLeft_eq, Nat.shiftRight_eq_div_pow]
  have low (i : Nat) : Nat.testBit 3 i = decide (i < 2) := Nat.testBit_two_pow_sub_one 2 i
  apply Nat.eq_of_testBit_eq
  intro i
  rw [shifted, Nat.testBit_shiftLeft, Nat.testBit_shiftRight, BitVec.testBit_toNat,
    BitVec.getLsbD_and, BitVec.getLsbD_not, BitVec.getLsbD_ofNat, BitVec.getLsbD_ofNat, low]
  by_cases inWord : i < width
  · by_cases high : 2 ≤ i
    · have same : 2 + (i - 2) = i := by omega
      simp [inWord, high, same, Nat.not_lt.mpr high]
    · simp [inWord, high, Nat.lt_of_not_le high]
  · have zero : n.testBit i = false :=
      Nat.testBit_lt_two_pow (Nat.lt_of_lt_of_le small
        (Nat.pow_le_pow_right (by decide) (Nat.le_of_not_lt inWord)))
    by_cases high : 2 ≤ i
    · have same : 2 + (i - 2) = i := by omega
      simp [inWord, same, zero]
    · simp [inWord, high]

theorem roundUp_of_lt {n : Nat} (small : n + 3 < m.size) :
    roundUp m n = pure (StorageBus.roundUp n) := by
  have inWord : n + 3 < 1 <<< m.width := small
  have above : sum m n 3 = pure (n + 3) := by
    rw [sum, Machine.sum?, if_pos small]
  rw [roundUp, above, pure_bind, toNat_cleared inWord]
  rfl

theorem roundUpWithin_of_lt {n : Nat} (small : n + 3 < m.size) :
    Reader.roundUpWithin m.width n = StorageBus.roundUp n := by
  have inWord : n + 3 < 1 <<< m.width := small
  rw [Reader.roundUpWithin, Nat.mod_eq_of_lt inWord, StorageBus.roundUp]

theorem eq_of_textSize? {width count size : Nat}
    (sized : Reader.textSize? width count = some size) : (count + 1) * 2 = size := by
  rw [Reader.textSize?] at sized
  split at sized
  · exact Option.some.inj sized
  · cases sized

theorem textBytes_of_none {count : Nat} (large : Reader.textSize? m.width count = none) :
    textBytes m count = throw (.malformed .textTooLong) := by
  simp only [textBytes, m.textSize?_eq, large]

theorem textBytes_of_some {count size : Nat} (sized : Reader.textSize? m.width count = some size)
    (small : size + 3 < m.size) : textBytes m count = do
      let taken ← take m .text (StorageBus.roundUp size)
      return (size, taken) := by
  simp only [textBytes, m.textSize?_eq, sized, roundUp_of_lt small, pure_bind]

theorem length_units {bs : Bytes} {n : Nat} (even : bs.length = n * 2) :
    (Reader.units bs).length = n := by
  have length := (Accepts.flatMap_unitsOnto [] even).2
  rwa [List.length_nil, Nat.zero_add] at length

/-- Enough bytes hold the units and the terminator behind them. -/
theorem lt_length_units {count : Nat} {taken : Bytes} (enough : (count + 1) * 2 ≤ taken.length) :
    count < (Reader.units (taken.take ((count + 1) * 2))).length := by
  have content : (taken.take ((count + 1) * 2)).length = (count + 1) * 2 := by
    rw [List.length_take, Nat.min_eq_left enough]
  rw [length_units content]
  exact Nat.lt_succ_self count

theorem textWithin_eq {count : Nat} {taken : Bytes} (enough : (count + 1) * 2 ≤ taken.length) :
    textWithin count ((count + 1) * 2) taken =
      match Reader.terminated count (Reader.units (taken.take ((count + 1) * 2))) with
      | .error e => throw (.malformed e)
      | .ok text => pure text := by
  have within := lt_length_units enough
  rw [textWithin, slice_of_le (Nat.zero_le _) enough, pure_bind, List.drop_zero]
  generalize Reader.units (taken.take ((count + 1) * 2)) = us at within
  simp only [index_of_lt within, slice_of_le (Nat.zero_le _) (Nat.le_of_lt within), pure_bind,
    List.drop_zero, Reader.terminated, List.getElem?_eq_getElem within]
  split
  · rfl
  · cases Text.Utf16.decode (us.take count) <;> rfl

theorem terminated_ne_overrun {count : Nat} {us : List UInt16} (within : count < us.length)
    {e : Malformation} (failed : Reader.terminated count us = .error e) (i n : Nat) :
    e ≠ .overrun i n := by
  rw [Reader.terminated, List.getElem?_eq_getElem within] at failed
  simp only at failed
  split at failed
  · cases failed
    simp
  · split at failed
    · cases failed
      simp
    · cases failed

theorem remaining_eq {c : Cursor} (within : c.position ≤ c.data.length) :
    remaining m c = .ok (c.data.length - c.position) c := by
  rw [remaining, bind_of_ok (m := MonadState.get) rfl, difference_of_le within]
  rfl

theorem take_of_le (item : Shape) {n : Nat} {c : Cursor} (fits : c.position + n ≤ c.data.length)
    (short : c.data.length < m.size) :
    take m item n c = .ok ((c.data.drop c.position).take n) ⟨c.data, c.position + n⟩ := by
  have stop : (m.sum? c.position n).filter (· ≤ c.data.length) = some (c.position + n) := by
    simp [Machine.sum?, Nat.lt_of_le_of_lt fits short, fits]
  rw [take, bind_of_ok (m := MonadState.get) rfl]
  simp only [stop]
  rw [slice_of_le (Nat.le_add_right _ _) fits, List.drop_take, Nat.add_sub_cancel_left]
  rfl

theorem take_of_not_le (item : Shape) {n : Nat} {c : Cursor}
    (exceeds : ¬ c.position + n ≤ c.data.length) (within : c.position ≤ c.data.length) :
    take m item n c =
      .error (.malformed (.truncated item n c.position (c.data.length - c.position))) c := by
  have stop : (m.sum? c.position n).filter (· ≤ c.data.length) = none := by
    simp only [Machine.sum?]
    split
    · simp only [Option.filter_some, decide_eq_true_eq, if_neg exceeds]
    · rfl
  rw [take, bind_of_ok (m := MonadState.get) rfl]
  simp only [stop]
  rw [bind_of_ok (remaining_eq within)]
  rfl

end Guarded

end StorageBus.Parcel
