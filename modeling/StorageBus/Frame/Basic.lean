import StorageBus.Bytes

/-!
# Frames

How calls are laid out on a byte stream: a header of three words, which are the size of the body,
the code of the call and flags, then the body.

## Main definitions

* `Frame`, `Frame.encode` — a frame and its bytes.
-/
namespace StorageBus

structure Frame where
  code : UInt32
  flags : UInt32
  body : Bytes
deriving DecidableEq, Repr

namespace Frame

def headerSize : Nat := 12

/-- The flag of a call that expects no answer. -/
def onewayFlag : UInt32 := 1

def header (f : Frame) : Bytes :=
  Word.encode 4 f.body.length ++ Word.encode 4 f.code.toNat ++ Word.encode 4 f.flags.toNat

def encode (f : Frame) : Bytes := f.header ++ f.body

@[simp] theorem length_header (f : Frame) : f.header.length = headerSize := by
  simp [header, headerSize]

@[simp] theorem length_encode (f : Frame) : f.encode.length = headerSize + f.body.length := by
  simp [encode]

end Frame

end StorageBus
