import StorageBus.Proofs.SocketPath.Place

/-!
# Lengths of socket paths

The path of a service is longer than an address holds only where shortening is of no help: not even
the path that has nothing of the name but a hash would fit. In a directory that leaves room for what
comes around the start of a name, every path fits. What is left of the room goes to the name.

## Main definitions

* `asciiRun` — the characters of a name up to the first outside ASCII.
* `Place.bare` — the path that has nothing of the name but the hash.

## Main results

* `Place.length_join_shortName` — how long the path of a shortened name is.
* `Place.eq_bare_of_over` — a path that does not fit has nothing of the name.
* `Place.fits_unless_bare_over` — which paths fit, and what is in them.
-/
namespace StorageBus.SocketPath

/-! ## ASCII -/

/-- The characters of a name up to the first outside ASCII. -/
def asciiRun (name : String) : List Char := name.toList.takeWhile fun ch => ch.toNat < 128

theorem toList_asciiStart (n : Nat) (name : String) :
    (asciiStart n name).toList = name.toList.take (min n (asciiRun name).length) := by
  have whole : asciiRun name = name.toList.take (asciiRun name).length :=
    List.prefix_iff_eq_take.mp (List.takeWhile_prefix _)
  calc (asciiStart n name).toList
      = (asciiRun name).take n := String.toList_ofList
    _ = (name.toList.take (asciiRun name).length).take n := by rw [← whole]
    _ = name.toList.take (min n (asciiRun name).length) := List.take_take

/-- A text in ASCII has one byte for each character. -/
theorem utf8ByteSize_of_ascii {s : String} (ascii : ∀ ch ∈ s.toList, ch.toNat < 128) :
    s.utf8ByteSize = s.toList.length := by
  have single (ch : Char) (small : ch.toNat < 128) : (String.utf8EncodeChar ch).length = 1 := by
    rw [String.length_utf8EncodeChar, Char.utf8Size_eq_one_iff]
    exact UInt32.le_iff_toNat_le.mpr (Nat.le_of_lt_succ small)
  rw [← length_utf8, utf8_eq_flatMap]
  generalize s.toList = chars at ascii
  induction chars with
  | nil => rfl
  | cons ch chars ih =>
    rw [List.forall_mem_cons] at ascii
    rw [List.flatMap_cons, List.length_append, single ch ascii.1, ih ascii.2, List.length_cons,
      Nat.add_comm]

theorem utf8ByteSize_asciiStart (n : Nat) (name : String) :
    (asciiStart n name).utf8ByteSize = min n (asciiRun name).length := by
  have within : (asciiRun name).length ≤ name.toList.length :=
    (List.takeWhile_prefix _).length_le
  rw [utf8ByteSize_of_ascii fun ch => Place.ascii_of_mem_asciiStart, toList_asciiStart,
    List.length_take]
  omega

namespace Place

variable {p : Place} {name : String}

/-! ## Parts of a path -/

theorem length_lead_le (p : Place) : p.lead.length ≤ p.dir.length + 1 := by
  rw [lead]
  split <;> simp

theorem length_lead_of_open (named : p.dir ≠ []) (opens : p.dir.getLast? ≠ some separator) :
    p.lead.length = p.dir.length + 1 := by
  rw [lead, if_neg (by simp [named, opens]), List.length_append, List.length_singleton]

theorem room_eq (p : Place) : p.room = p.limit - p.dir.length - 23 := by
  rw [room, Nat.sub_sub]
  rfl

theorem utf8ByteSize_digits (p : Place) (name : String) :
    (String.ofList (p.digits name)).utf8ByteSize = 16 := by
  have ascii : ∀ ch ∈ (String.ofList (p.digits name)).toList, ch.toNat < 128 := by
    intro ch mem
    rw [String.toList_ofList] at mem
    exact (Text.Hex.spells_of_mem_fixed mem).ascii
  rw [utf8ByteSize_of_ascii ascii, String.toList_ofList]
  exact Text.Hex.length_fixed _ _ _

theorem shortName_eq (p : Place) (name : String) :
    p.shortName name = String.ofList
      (name.toList.take (min p.room (asciiRun name).length) ++ '_' :: p.digits name) := by
  rw [← toList_asciiStart, ← String.toList_inj]
  simp [shortName]

/-- An underscore, sixteen digits and the ending come behind what is left of the name. -/
theorem length_shortName_ending (p : Place) (name : String) :
    (utf8 (p.shortName name ++ ending)).length = min p.room (asciiRun name).length + 22 := by
  rw [length_utf8, shortName, String.utf8ByteSize_append, String.utf8ByteSize_append,
    String.utf8ByteSize_append, utf8ByteSize_asciiStart, utf8ByteSize_digits]
  rfl

/-! ## Shortened paths -/

theorem ofService_of_fits (fits : p.Fits name) : p.ofService name = p.full name := by
  rw [ofService, called, if_pos fits, full]

theorem ofService_of_not_fits (long : ¬ p.Fits name) :
    p.ofService name = p.join (p.shortName name ++ ending) := by
  rw [ofService, called, if_neg long]

/-- An absolute name may leave the directory out. -/
theorem length_join_shortName_le (p : Place) (name : String) :
    (p.join (p.shortName name ++ ending)).length ≤
      p.lead.length + (min p.room (asciiRun name).length + 22) := by
  rw [← length_shortName_ending, join]
  split
  · exact Nat.le_add_left _ _
  · exact Nat.le_of_eq List.length_append

theorem length_join_shortName (relative : Relative name) (p : Place) :
    (p.join (p.shortName name ++ ending)).length =
      p.lead.length + (min p.room (asciiRun name).length + 22) := by
  rw [← length_shortName_ending, join_of_relative ((relative.shortName p).append relative_ending),
    List.length_append]

/-! ## Paths without the name -/

/-- The path that has nothing of the name but the hash. -/
def bare (p : Place) (name : String) : Bytes :=
  p.lead ++ utf8 ("_" ++ String.ofList (p.digits name) ++ ending)

theorem length_bare (p : Place) (name : String) : (p.bare name).length = p.lead.length + 22 := by
  rw [bare, List.length_append, length_utf8, String.utf8ByteSize_append,
    String.utf8ByteSize_append, utf8ByteSize_digits]
  rfl

/-- Without room for its slash not even an absolute name replaces the directory. -/
theorem join_shortName_of_no_room (full : p.room = 0) :
    p.join (p.shortName name ++ ending) = p.bare name := by
  have nothing : asciiStart p.room name = "" := by
    rw [← String.toList_inj, toList_asciiStart, full]
    simp
  have relative : Relative ("_" ++ String.ofList (p.digits name) ++ ending) := by
    simp [relative_iff]
  rw [shortName, nothing, String.empty_append, join_of_relative relative, bare]

/-- A path that does not fit has nothing of the name, and its directory leaves no room. -/
theorem eq_bare_of_over (exceeds : p.limit < (p.ofService name).length) :
    ¬ p.Fits name ∧ p.limit < p.dir.length + 23 ∧ p.ofService name = p.bare name := by
  have long : ¬ p.Fits name := by
    intro fits
    rw [ofService_of_fits fits] at exceeds
    exact Nat.not_lt.mpr fits exceeds
  have room := p.room_eq
  have lead := p.length_lead_le
  have length := p.length_join_shortName_le name
  rw [ofService_of_not_fits long] at exceeds ⊢
  exact ⟨long, by omega, join_shortName_of_no_room (by omega)⟩

theorem over_iff :
    p.limit < (p.ofService name).length ↔ ¬ p.Fits name ∧ p.limit < (p.bare name).length := by
  constructor
  · intro exceeds
    obtain ⟨long, -, bare⟩ := eq_bare_of_over exceeds
    exact ⟨long, bare ▸ exceeds⟩
  · rintro ⟨long, exceeds⟩
    have room := p.room_eq
    have lead := p.length_lead_le
    have length := p.length_bare name
    rwa [ofService_of_not_fits long, join_shortName_of_no_room (by omega)]

/-- What is left of a name fills the room, up to the last byte that an address holds. -/
theorem length_eq_limit (relative : Relative name) (long : ¬ p.Fits name)
    (ascii : p.room ≤ (asciiRun name).length) (named : p.dir ≠ [])
    (opens : p.dir.getLast? ≠ some separator) (fits : p.dir.length + 23 ≤ p.limit) :
    (p.ofService name).length = p.limit := by
  have room := p.room_eq
  rw [ofService_of_not_fits long, length_join_shortName relative, length_lead_of_open named opens]
  omega

/-! ## All paths -/

/-- In every place a path is too long for an address just if the path of the whole name is and the
one that has nothing of the name but the hash is as well, and then it is the latter. So there is
none where the directory leaves room for what comes around a name. A name whose path fits is kept.
Of any other stays as much of its ASCII start as there is room for, and a start that is long enough
fills the address. -/
theorem fits_unless_bare_over (p : Place) (name : String) :
    let room := p.limit - p.dir.length - 23
    (p.limit < (p.ofService name).length ↔ ¬ p.Fits name ∧ p.limit < (p.bare name).length) ∧
    (p.dir.length + 23 ≤ p.limit → (p.ofService name).length ≤ p.limit) ∧
    (p.limit < (p.ofService name).length →
      p.limit < p.dir.length + 23 ∧ p.ofService name = p.bare name) ∧
    (p.Fits name → p.ofService name = p.full name) ∧
    (¬ p.Fits name →
      let start := name.toList.take (min room (asciiRun name).length)
      p.ofService name = p.join (String.ofList (start ++ '_' :: p.digits name) ++ ending)) ∧
    (Relative name → ¬ p.Fits name → room ≤ (asciiRun name).length → p.dir ≠ [] →
      p.dir.getLast? ≠ some separator → p.dir.length + 23 ≤ p.limit →
      (p.ofService name).length = p.limit) ∧
    ∀ dir, p = ofText dir → utf8 (SocketPath.ofService dir name) = p.ofService name := by
  intro room
  have roomy : p.room = room := p.room_eq
  refine ⟨over_iff, ?_, fun exceeds => (eq_bare_of_over exceeds).2, ofService_of_fits, ?_, ?_, ?_⟩
  · intro fits
    exact Nat.not_lt.mp fun exceeds => Nat.not_lt.mpr fits (eq_bare_of_over exceeds).2.1
  · intro long start
    rw [ofService_of_not_fits long, shortName_eq, roomy]
  · intro relative long ascii named opens fits
    exact length_eq_limit relative long (roomy ▸ ascii) named opens fits
  · rintro dir rfl
    exact utf8_ofService dir name

/-- A long name in a directory that leaves room, and an absolute one in a directory that is one byte
too long for that. -/
theorem fits_unless_bare_over_edges :
    let p := ofText "/tmp"
    let a := String.ofList (List.replicate 120 'a')
    let q := ofText (String.ofList ('/' :: List.replicate 84 'd'))
    let b := String.ofList ('/' :: List.replicate 120 'b')
    Relative a ∧ ¬ p.Fits a ∧ p.limit - p.dir.length - 23 ≤ (asciiRun a).length ∧ p.dir ≠ [] ∧
      p.dir.getLast? ≠ some separator ∧ p.dir.length + 23 ≤ p.limit ∧
      (SocketPath.ofService "/tmp" a).utf8ByteSize = 107 ∧
      ¬ q.Fits b ∧ q.limit < (q.bare b).length ∧
      q.limit < (q.ofService b).length ∧ q.dir.length = q.limit - 22 ∧
      q.ofService b = q.bare b := by
  intro p a q b
  have relative : Relative a := by
    rw [relative_iff]
    decide +kernel
  have long : ¬ p.Fits a := by decide +kernel
  have ascii : p.limit - p.dir.length - 23 ≤ (asciiRun a).length := by decide +kernel
  have named : p.dir ≠ [] := by decide +kernel
  have opens : p.dir.getLast? ≠ some separator := by decide +kernel
  have fits : p.dir.length + 23 ≤ p.limit := by decide +kernel
  have long' : ¬ q.Fits b := by decide +kernel
  have deep : q.limit < (q.bare b).length := by
    rw [length_bare]
    decide +kernel
  have edge : q.dir.length = q.limit - 22 := by decide +kernel
  obtain ⟨-, -, -, -, -, fills, texts⟩ := fits_unless_bare_over p a
  obtain ⟨over_iff, -, bare, -⟩ := fits_unless_bare_over q b
  have whole : (SocketPath.ofService "/tmp" a).utf8ByteSize = 107 := by
    rw [← length_utf8, texts "/tmp" rfl, fills relative long ascii named opens fits]
    rfl
  have exceeds := over_iff.mpr ⟨long', deep⟩
  exact ⟨relative, long, ascii, named, opens, fits, whole, long', deep, exceeds, edge,
    (bare exceeds).2⟩

end Place

end StorageBus.SocketPath
