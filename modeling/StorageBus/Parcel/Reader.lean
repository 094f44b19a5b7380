import StorageBus.Parcel.Basic
import StorageBus.Parcel.Malformation

/-!
# Reading parcels

A cursor over the bytes of a parcel. Each read takes exactly the bytes of one item with its padding,
or fails; after a failure the cursor stands behind the words that were taken before it. The content
of padding is not looked at.

Lengths are computed in machine words of a given width: sums and products are checked, while
rounding up to the four-byte grid wraps.

## Main definitions

* `Reader`, `Read` — the cursor, and computations that move it.
* `Reader.int`, `Reader.text`, … — one read per item.
-/
namespace StorageBus.Parcel

structure Reader where
  /-- The number of bits in a machine word. -/
  width : Nat := 64
  position : Nat := 0
  /-- The bytes from the position on. -/
  rest : Bytes
deriving Repr

/-- A computation that moves the cursor; it keeps its place also when it fails. -/
abbrev Read (α : Type) := EStateM Malformation Reader α

namespace Reader

def ofBytes (bytes : Bytes) : Reader := { rest := bytes }

def remaining (r : Reader) : Nat := r.rest.length

/-! ## Lengths in machine words -/

/-- Rounding up to the four-byte grid in words of `width` bits. -/
def roundUpWithin (width n : Nat) : Nat := (n + 3) % (1 <<< width) / 4 * 4

/-- The bytes of `count` units with their terminator, unless a word cannot hold the number. -/
def textSize? (width count : Nat) : Option Nat :=
  if count + 1 < 1 <<< width ∧ (count + 1) * 2 < 1 <<< width then some ((count + 1) * 2) else none

/-! ## Words -/

/-- The next `n` bytes. -/
def take (item : Shape) (n : Nat) : Read Bytes := fun r =>
  match splitBytes? n r.rest with
  | some (taken, rest) =>
    if r.position + n < 1 <<< r.width then
      .ok taken { r with position := r.position + n, rest := rest }
    else .error (.truncated item n r.position r.remaining) r
  | none => .error (.truncated item n r.position r.remaining) r

def unsignedAs (item : Shape) : Read UInt32 := do
  return UInt32.ofNat (Word.value (← take item 4))

def unsigned : Read UInt32 := unsignedAs .unsigned

def int : Read Int32 := do return (← unsignedAs .int).toInt32

def long : Read Int64 := do return (UInt64.ofNat (Word.value (← take .long 8))).toInt64

/-- Any number but zero stands for true. -/
def bool : Read Bool := do return (← int) != 0

/-! ## Texts and byte arrays -/

/-- A length, or none for an absent item. -/
def length? (item : Shape) : Read (Option Nat) := do
  let n ← int
  if n = absent then return none
  else if n < 0 then throw (.negativeLength item n)
  else return some n.toInt.toNat

/-- The units of bytes, two bytes each, behind units already read, which stand in reverse. -/
def unitsOnto (seen : List UInt16) : Bytes → List UInt16
  | low :: high :: bs => unitsOnto (UInt16.ofNat (Word.value [low, high]) :: seen) bs
  | _ => seen.reverse

def units (bs : Bytes) : List UInt16 := unitsOnto [] bs

/-- The text in the first `count` of these units, behind which a zero unit has to stand. -/
def terminated (count : Nat) (us : List UInt16) : Except Malformation String :=
  match us[count]? with
  | none => .error (.overrun count us.length)
  | some terminator =>
    if terminator ≠ 0 then .error .missingTerminator
    else match Text.Utf16.decode (us.take count) with
      | none => .error .loneSurrogate
      | some text => .ok text

def optionalText : Read (Option String) := do
  match ← length? .text with
  | none => return none
  | some count =>
    let width := (← get).width
    match textSize? width count with
    | none => throw .textTooLong
    | some size =>
      let taken ← take .text (roundUpWithin width size)
      match terminated count (units (taken.take size)) with
      | .error e => throw e
      | .ok text => return some text

/-- A text; an absent one reads as empty. -/
def text : Read String := do return (← optionalText).getD ""

def bytes : Read (Option Bytes) := do
  match ← length? .bytes with
  | none => return none
  | some n =>
    let taken ← take .bytes (roundUpWithin (← get).width n)
    return some (taken.take n)

def token : Read String := do
  match ← optionalText with
  | none => throw .absentToken
  | some descriptor => return descriptor

/-! ## Records -/

def record {α : Type} (schema : Message.Schema α) : Read (Option α) := do
  let flag ← int
  if flag = 0 then return none
  else if flag = 1 then
    match ← bytes with
    | none => throw .absentBody
    | some body =>
      match schema.decode body with
      | .error e => throw (.badMessage e)
      | .ok record => return some record
  else throw (.badFlag flag)

end Reader

end StorageBus.Parcel
