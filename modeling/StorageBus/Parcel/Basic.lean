import StorageBus.Message.Schema
import StorageBus.Text.Utf16

/-!
# Parcels

The ordered bytes that a call carries. Numbers are words with the least significant byte first, a
long number two of them, a truth value the number zero or one. A text is the count of its UTF-16
units, the units, a zero unit and padding; a byte array is its length, the bytes and padding. The
count `-1` stands for an absent text or byte array. A record is a flag, zero if it is absent and
one if not, then its message as a byte array. Padding leads to the next multiple of four.

## Main definitions

* `Parcel` and its `put` operations, which append one item each.
-/
namespace StorageBus

/-- The largest parcel that a carrier takes. -/
def maxParcelSize : Nat := 1 <<< 20

structure Parcel where
  bytes : Bytes := []
deriving DecidableEq, Repr

namespace Parcel

def size (p : Parcel) : Nat := p.bytes.length

def describe (p : Parcel) : String :=
  let size := p.size
  s!"Parcel \x7b len: {size} \x7d"

/-! ## Appending -/

def append (p : Parcel) (bs : Bytes) : Parcel := ⟨p.bytes ++ bs⟩

/-- Zeros up to the next multiple of four. -/
def pad (p : Parcel) : Parcel := ⟨align p.bytes⟩

def putUnsigned (v : UInt32) (p : Parcel) : Parcel := p.append (Word.encode 4 v.toNat)

def putInt (v : Int32) (p : Parcel) : Parcel := p.putUnsigned v.toUInt32

def putLong (v : Int64) (p : Parcel) : Parcel := p.append (Word.encode 8 v.toUInt64.toNat)

def putBool (v : Bool) (p : Parcel) : Parcel := p.putUnsigned (if v then 1 else 0)

/-- The word that stands for an absent item. -/
def absent : Int32 := -1

/-- A count, of which the word holds the low 32 bits. -/
def putCount (n : Nat) (p : Parcel) : Parcel := p.putUnsigned (UInt32.ofNat n)

def putOptionalText (text : Option String) (p : Parcel) : Parcel :=
  match text with
  | none => p.putInt absent
  | some text =>
    let units := Text.Utf16.encode text
    (((p.putCount units.length).append (units.flatMap fun u => Word.encode 2 u.toNat)).append
      [0, 0]).pad

def putText (text : String) (p : Parcel) : Parcel := p.putOptionalText (some text)

def putBytes (bytes : Option Bytes) (p : Parcel) : Parcel :=
  match bytes with
  | none => p.putInt absent
  | some bytes => ((p.putCount bytes.length).append bytes).pad

/-- The interface descriptor that every call carries first. -/
def putToken (descriptor : String) (p : Parcel) : Parcel := p.putText descriptor

def putRecord {α : Type} (schema : Message.Schema α) (record : Option α) (p : Parcel) : Parcel :=
  match record with
  | none => p.putInt 0
  | some record => (p.putInt 1).putBytes (some (schema.encode record))

/-! ## Views -/

@[simp] theorem bytes_append (p : Parcel) (bs : Bytes) : (p.append bs).bytes = p.bytes ++ bs := rfl

@[simp] theorem size_append (p : Parcel) (bs : Bytes) :
    (p.append bs).size = p.size + bs.length := by
  simp [size]

@[simp] theorem bytes_pad (p : Parcel) : p.pad.bytes = align p.bytes := rfl

@[simp] theorem size_pad (p : Parcel) : p.pad.size = roundUp p.size := by simp [size]

end Parcel

end StorageBus
