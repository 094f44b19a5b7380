import StorageBus.Proofs.Hex
import StorageBus.SocketPath

/-!
# Socket paths as bytes

The path of a directory is any bytes, while the name of a service is a text, and how many bytes a
socket address holds differs from system to system. What is said of paths here is said for every
such place; the directories that are texts, and the addresses of 107 bytes, are one case of it.

## Main definitions

* `Place` — a directory, with the bytes that an address holds.
* `Place.called` — the name of a service as its socket has it, kept or shortened.
* `Place.ofService` — the path of a service's socket.

## Main results

* `utf8_ofService` — the path of a service in a directory that is a text.
* `Place.ofService_of_relative` — the path of a name that does not replace the directory.
* `Place.shortName_form` — what a name is shortened to.
-/
namespace StorageBus.SocketPath

/-! ## Texts as bytes -/

/-- The byte between the names of a path. -/
def separator : UInt8 := 0x2f

theorem utf8_eq_flatMap (s : String) : utf8 s = s.toList.flatMap String.utf8EncodeChar := by
  rw [← String.ofList_toList (s := s), utf8, String.toUTF8_eq_toByteArray,
    String.toByteArray_ofList, String.toList_ofList, List.utf8Encode, List.toList_data_toByteArray]

theorem utf8_append (s t : String) : utf8 (s ++ t) = utf8 s ++ utf8 t := by
  rw [utf8_eq_flatMap, utf8_eq_flatMap, utf8_eq_flatMap, String.toList_append, List.flatMap_append]

theorem utf8_inj {s t : String} : utf8 s = utf8 t ↔ s = t := by
  constructor
  · intro same
    exact String.toByteArray_inj.mp (ByteArray.ext (Array.toList_inj.mp same))
  · rintro rfl
    rfl

@[simp] theorem length_utf8 (s : String) : (utf8 s).length = s.utf8ByteSize := rfl

theorem utf8_eq_nil_iff {s : String} : utf8 s = [] ↔ s = "" := utf8_inj (t := "")

theorem startsWith_slash_iff {s : String} : s.startsWith "/" ↔ s.toList.head? = some '/' := by
  rw [String.startsWith_string_iff]
  exact List.singleton_prefix_iff_head?_eq_some

/-- No character but the slash is encoded with the separator as its last byte. -/
theorem eq_slash_of_getLast? {ch : Char}
    (last : (String.utf8EncodeChar ch).getLast? = some separator) : ch = '/' := by
  obtain ⟨before, eq⟩ := List.getLast?_eq_some_iff.mp last
  have bound : before.length < (String.utf8EncodeChar ch).length := by
    rw [eq]
    simp
  have found : (String.utf8EncodeChar ch)[before.length] = separator := by
    simp [eq]
  -- the separator begins a character, so that it is the first byte and the only one
  have first : before.length = 0 :=
    UInt8.isUTF8FirstByte_getElem_utf8EncodeChar.mp
      (found ▸ (by decide : separator.IsUTF8FirstByte))
  have same : utf8 (String.singleton ch) = utf8 "/" := by
    rw [utf8_eq_flatMap, String.toList_singleton, List.flatMap_singleton, eq,
      List.length_eq_zero_iff.mp first]
    rfl
  simpa [String.ext_iff] using utf8_inj.mp same

theorem endsWith_slash_iff {s : String} :
    s.endsWith "/" ↔ (utf8 s).getLast? = some separator := by
  have suffix : s.endsWith "/" ↔ ['/'] <:+ s.toList := by
    have sliced : s.toSlice.endsWith "/" ↔ "/".toList <:+ s.toSlice.copy.toList :=
      String.Slice.endsWith_string_iff
    rwa [String.copy_toSlice] at sliced
  rw [suffix, utf8_eq_flatMap]
  constructor
  · rintro ⟨before, eq⟩
    rw [← eq, List.flatMap_append, List.getLast?_append]
    rfl
  · intro ends
    rcases List.eq_nil_or_concat s.toList with empty | ⟨before, last, eq⟩
    · simp [empty] at ends
    · rw [eq, List.concat_eq_append, List.flatMap_append, List.flatMap_singleton,
        List.getLast?_append, List.getLast?_eq_some_getLast String.utf8EncodeChar_ne_nil,
        Option.some_or, ← List.getLast?_eq_some_getLast] at ends
      exact ⟨before, by rw [eq, eq_slash_of_getLast? ends, List.concat_eq_append]⟩

/-! ## Places for sockets -/

/-- A directory for sockets whose addresses hold so many bytes. -/
structure Place where
  dir : Bytes
  limit : Nat := maxLength

namespace Place

/-- What stands in front of a name in the directory. -/
def lead (p : Place) : Bytes :=
  if p.dir = [] ∨ p.dir.getLast? = some separator then p.dir else p.dir ++ [separator]

def join (p : Place) (name : String) : Bytes :=
  if name.startsWith "/" then utf8 name else p.lead ++ utf8 name

/-- The path that the service would have if length did not matter. -/
def full (p : Place) (name : String) : Bytes := p.join (name ++ ending)

def Fits (p : Place) (name : String) : Prop := (p.full name).length ≤ p.limit

instance (p : Place) (name : String) : Decidable (p.Fits name) :=
  inferInstanceAs (Decidable (_ ≤ _))

/-- How many characters of a name a shortened path has room for. -/
def room (p : Place) : Nat := p.limit - (p.dir.length + 1 + 1 + 16 + ending.utf8ByteSize)

/-- The hash of the path that the service would have, in sixteen digits. -/
def digits (p : Place) (name : String) : List Char :=
  Text.Hex.fixed .lower 16 (Fnv1a.hash (p.full name)).toNat

def shortName (p : Place) (name : String) : String :=
  asciiStart p.room name ++ "_" ++ String.ofList (p.digits name)

/-- The name of a service as its socket has it. -/
def called (p : Place) (name : String) : String := if p.Fits name then name else p.shortName name

def ofService (p : Place) (name : String) : Bytes := p.join (p.called name ++ ending)

/-! ### Directories that are texts -/

/-- A directory whose path is a text. -/
def ofText (dir : String) : Place := { dir := utf8 dir }

theorem utf8_join (dir name : String) :
    utf8 (SocketPath.join dir name) = (ofText dir).join name := by
  have plain : (dir = "" || dir.endsWith "/") = true ↔
      utf8 dir = [] ∨ (utf8 dir).getLast? = some separator := by
    rw [Bool.or_eq_true, decide_eq_true_iff, endsWith_slash_iff, utf8_eq_nil_iff]
  rw [SocketPath.join, join]
  split
  · rfl
  · by_cases inside : utf8 dir = [] ∨ (utf8 dir).getLast? = some separator
    · have lead : (ofText dir).lead = utf8 dir := if_pos inside
      rw [if_pos (plain.mpr inside), lead, utf8_append]
    · have lead : (ofText dir).lead = utf8 dir ++ [separator] := if_neg inside
      rw [if_neg (inside ∘ plain.mp), lead, utf8_append, utf8_append]
      rfl

theorem utf8_full (dir name : String) :
    utf8 (SocketPath.full dir name) = (ofText dir).full name := utf8_join dir (name ++ ending)

theorem fits_ofText_iff {dir name : String} :
    (ofText dir).Fits name ↔ (SocketPath.full dir name).utf8ByteSize ≤ maxLength := by
  rw [Fits, ← utf8_full, length_utf8]
  rfl

/-- The path of a service in a directory that is a text. -/
theorem utf8_ofService (dir name : String) :
    utf8 (SocketPath.ofService dir name) = (ofText dir).ofService name := by
  rw [ofService, called]
  by_cases fits : (ofText dir).Fits name
  · rw [if_pos fits, SocketPath.ofService, if_pos (fits_ofText_iff.mp fits)]
    exact utf8_full dir name
  · rw [if_neg fits, SocketPath.ofService, if_neg (fits ∘ fits_ofText_iff.mpr), utf8_join,
      fingerprint, utf8_full]
    rfl

/-! ### Names that do not replace the directory -/

/-- A name that is joined to the directory. -/
def Relative (name : String) : Prop := ¬ name.startsWith "/"

theorem relative_iff {name : String} : Relative name ↔ name.toList.head? ≠ some '/' :=
  not_congr startsWith_slash_iff

theorem join_of_relative {p : Place} {name : String} (relative : Relative name) :
    p.join name = p.lead ++ utf8 name := if_neg relative

theorem relative_ending : Relative ending := by
  simp [relative_iff, ending]

theorem Relative.append {name rest : String} (relative : Relative name)
    (relative' : Relative rest) : Relative (name ++ rest) := by
  rw [relative_iff, String.toList_append] at *
  cases first : name.toList with
  | nil => exact relative'
  | cons ch chars => simpa [first] using relative

theorem Relative.of_begins {name start : String} (relative : Relative name)
    (begins : start.toList <+: name.toList) : Relative start := by
  obtain ⟨rest, eq⟩ := begins
  rw [relative_iff] at *
  cases first : start.toList with
  | nil => simp
  | cons ch chars => simpa [← eq, first] using relative

theorem asciiStart_begins (n : Nat) (name : String) :
    (asciiStart n name).toList <+: name.toList := by
  rw [asciiStart, String.toList_ofList]
  exact (List.take_prefix n _).trans (List.takeWhile_prefix _)

theorem ascii_of_mem_asciiStart {n : Nat} {name : String} {ch : Char}
    (mem : ch ∈ (asciiStart n name).toList) : ch.toNat < 128 := by
  rw [asciiStart, String.toList_ofList] at mem
  exact of_decide_eq_true (List.all_eq_true.mp List.all_takeWhile ch (List.mem_of_mem_take mem))

/-- What a name is shortened to: an ASCII start of it, an underscore and sixteen digits that spell
the hash of its path. -/
theorem shortName_form (p : Place) (name : String) :
    ∃ start digits : List Char, (p.shortName name).toList = start ++ '_' :: digits ∧
      start <+: name.toList ∧ start.length ≤ p.room ∧ (∀ ch ∈ start, ch.toNat < 128) ∧
      digits.length = 16 ∧ (∀ ch ∈ digits, Text.HexCase.lower.Spells ch) ∧
      Text.Hex.value digits = (Fnv1a.hash (p.full name)).toNat := by
  refine ⟨(asciiStart p.room name).toList, p.digits name, ?_, asciiStart_begins _ _, ?_,
    fun ch => ascii_of_mem_asciiStart, Text.Hex.length_fixed _ _ _,
    fun ch => Text.Hex.spells_of_mem_fixed, ?_⟩
  · simp [shortName]
  · rw [asciiStart, String.toList_ofList]
    exact List.length_take_le _ _
  · rw [Place.digits, Text.Hex.value_fixed]
    exact Nat.mod_eq_of_lt (UInt64.toNat_lt _)

theorem Relative.shortName {name : String} (relative : Relative name) (p : Place) :
    Relative (p.shortName name) := by
  have start := relative.of_begins (asciiStart_begins p.room name)
  have underscore : Relative ("_" ++ String.ofList (p.digits name)) := by
    simp [relative_iff]
  rw [Place.shortName, String.append_assoc]
  exact start.append underscore

theorem Relative.called {name : String} (relative : Relative name) (p : Place) :
    Relative (p.called name) := by
  rw [Place.called]
  split
  · exact relative
  · exact relative.shortName p

theorem ofService_of_relative {p : Place} {name : String} (relative : Relative name) :
    p.ofService name = p.lead ++ utf8 (p.called name ++ ending) :=
  join_of_relative ((relative.called p).append relative_ending)

end Place

end StorageBus.SocketPath
