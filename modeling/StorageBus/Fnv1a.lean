import StorageBus.Bytes

/-!
# FNV-1a

The 64-bit FNV-1a hash: each byte is combined by exclusive or, then the hash is multiplied by a
prime modulo `2 ^ 64`.
-/
namespace StorageBus.Fnv1a

def offsetBasis : UInt64 := 0xcbf29ce484222325

def prime : UInt64 := 0x100000001b3

/-- One byte taken into the hash. -/
def step (hash : UInt64) (b : UInt8) : UInt64 := (hash ^^^ b.toUInt64) * prime

def hash (bs : Bytes) : UInt64 := bs.foldl step offsetBasis

@[simp] theorem hash_nil : hash [] = offsetBasis := rfl

theorem hash_append (bs cs : Bytes) : hash (bs ++ cs) = cs.foldl step (hash bs) := by
  simp [hash]

end StorageBus.Fnv1a
