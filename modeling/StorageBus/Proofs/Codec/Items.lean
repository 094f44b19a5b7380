import Mathlib.Data.List.Forall2
import StorageBus.Parcel.Item
import StorageBus.Proofs.Codec.Event

/-!
# Items one after the other

Items of any types that are put into a parcel stand there one behind the other, each on the
four-byte grid, and nothing that was there before changes. Reading them in the same order gives them
back, and each read ends where the next item starts.

## Main definitions

* `Item.putEach` — a parcel with items appended.
* `Item.ReadsAs` — the reads that go with an item, and what they give.
* `Item.readerBehind` — where a reader stands behind some of the items.

## Main results

* `Item.putEach_append` — what items add to a parcel on the four-byte grid.
* `Item.reads_back` — the matching reads give the items back.
-/
namespace StorageBus.Parcel

open Event (CountableText CountableRecord)

/-- What a `put` appends is what it makes of an empty parcel. -/
theorem Conveys.bytes_empty {α : Type} {countable : Prop} {items : Nat} {put : Parcel → Parcel}
    {read : Read α} {v : α} (h : Conveys countable items put read v) :
    Appends put (put {}).bytes ∧ (countable → Takes read (put {}).bytes v) := by
  obtain ⟨bytes, appends, -, takes⟩ := h
  have same : (put {}).bytes = bytes := appends.bytes_put {} rfl
  rw [same]
  exact ⟨appends, fun counted => (takes counted).1⟩

namespace Item

/-- The count of a text, byte array or record has room in its word. -/
def Countable : Item → Prop
  | int _ | unsigned _ | long _ | bool _ => True
  | text v | token v => CountableText v
  | optionalText v => ∀ text ∈ v, CountableText text
  | bytes v => ∀ content ∈ v, content.length < 1 <<< 31
  | disk v => CountableRecord Disk.schema v
  | volume v => CountableRecord Volume.schema v
  | knownVolume v => CountableRecord KnownVolume.schema v

/-- The reads that go with an item, and what they give. Besides the read of its own type, an
optional text can be read as a text, and is empty then if it is absent. -/
inductive ReadsAs : Item → ItemType → Item → Prop
  | same (item : Item) : ReadsAs item item.type item
  | text (v : Option String) : ReadsAs (.optionalText v) .text (.text (v.getD ""))

theorem ReadsAs.conveys {item value : Item} {type : ItemType} (h : item.ReadsAs type value) :
    Conveys item.Countable 1 (fun p => item.put p) type.read value := by
  cases h with
  | same =>
    cases item with
    | int v => exact (Conveys.int v).bind_pure rfl
    | unsigned v => exact (Conveys.unsigned v).bind_pure rfl
    | long v => exact (Conveys.long v).bind_pure rfl
    | bool v => exact (Conveys.bool v).bind_pure rfl
    | text v => exact (Conveys.text v).bind_pure rfl
    | optionalText v => exact (Conveys.optionalText v).bind_pure rfl
    | bytes v => exact (Conveys.bytes v).bind_pure rfl
    | token v => exact (Conveys.token v).bind_pure rfl
    | disk v => exact (Conveys.record Disk.schema_lawful v).bind_pure rfl
    | volume v => exact (Conveys.record Volume.schema_lawful v).bind_pure rfl
    | knownVolume v => exact (Conveys.record KnownVolume.schema_lawful v).bind_pure rfl
  | text v =>
    have plain : Conveys _ 1 (putOptionalText v) Reader.text (v.getD "") :=
      (Conveys.optionalText v).bind_pure rfl
    exact plain.bind_pure rfl

/-! ## Appending -/

/-- The bytes of an item behind the four-byte grid. -/
def encode (item : Item) : Bytes := (item.put {}).bytes

theorem appends (item : Item) : Appends (fun p => item.put p) item.encode :=
  (ReadsAs.same item).conveys.bytes_empty.1

theorem takes {item value : Item} {type : ItemType} (h : item.ReadsAs type value)
    (countable : item.Countable) : Takes type.read item.encode value :=
  h.conveys.bytes_empty.2 countable

/-- The parcel with these items appended, one behind the other. -/
def putEach (p : Parcel) (items : List Item) : Parcel := items.foldl put p

theorem putEach_append (items : List Item) : Appends (fun p => putEach p items)
    (items.flatMap encode) := by
  induction items with
  | nil => exact ⟨rfl, fun p _ => (List.append_nil _).symm⟩
  | cons item items ih => exact item.appends.comp ih

variable {p : Parcel} (aligned : p.size % 4 = 0)
include aligned

theorem bytes_putEach (items : List Item) :
    (putEach p items).bytes = p.bytes ++ items.flatMap encode :=
  (putEach_append items).bytes_put p aligned

theorem size_putEach (items : List Item) :
    (putEach p items).size = p.size + (items.flatMap encode).length := by
  rw [size, bytes_putEach aligned, List.length_append, size]

theorem putEach_aligned (items : List Item) : (putEach p items).size % 4 = 0 := by
  have := (putEach_append items).aligned
  rw [size_putEach aligned]
  omega

theorem putEach_prefix {front items : List Item} (first : front <+: items) :
    (putEach p front).bytes <+: (putEach p items).bytes := by
  obtain ⟨behind, rfl⟩ := first
  rw [bytes_putEach aligned, bytes_putEach aligned, List.flatMap_append, ← List.append_assoc]
  exact List.prefix_append _ _

omit aligned

/-! ## Reading -/

theorem readEach_flatMap {items : List Item} {reads : List (ItemType × Item)}
    (matching : items.Forall₂ (fun item read => item.ReadsAs read.1 read.2) reads)
    (countable : ∀ item ∈ items, item.Countable) (width position : Nat)
    (inWord : position + (items.flatMap encode).length < 1 <<< width) :
    ItemType.readEach ⟨width, position, items.flatMap encode⟩ (reads.map Prod.fst) =
      (reads.mapIdx fun n read => (read.2, ⟨width,
        position + ((items.take (n + 1)).flatMap encode).length,
        (items.drop (n + 1)).flatMap encode⟩), none) := by
  induction matching generalizing position with
  | nil => rfl
  | @cons item read items reads first others ih =>
    rw [List.flatMap_cons, List.length_append] at inWord
    have taken := takes first (countable item List.mem_cons_self) width position
      (items.flatMap encode) (by omega)
    have rest := ih (fun item mem => countable item (List.mem_cons_of_mem _ mem))
      (position + item.encode.length) (by omega)
    rw [List.map_cons, List.flatMap_cons, ItemType.readEach, taken]
    simp only [rest, List.mapIdx_cons, List.take_succ_cons, List.flatMap_cons, List.length_append,
      List.drop_succ_cons, List.take_zero, List.flatMap_nil, List.length_nil, Nat.add_zero,
      List.drop_zero, Nat.add_assoc]

/-- The reader of what was appended to a parcel, behind the first `n` of the items. -/
def readerBehind (width : Nat) (p : Parcel) (items : List Item) (n : Nat) : Reader where
  width := width
  position := (putEach p (items.take n)).size - p.size
  rest := (putEach p items).bytes.drop (putEach p (items.take n)).size

theorem readerBehind_eq (width : Nat) (aligned : p.size % 4 = 0) (items : List Item) (n : Nat) :
    readerBehind width p items n = ⟨width, ((items.take n).flatMap encode).length,
      (items.drop n).flatMap encode⟩ := by
  have split : items.flatMap encode =
      (items.take n).flatMap encode ++ (items.drop n).flatMap encode := by
    rw [← List.flatMap_append, List.take_append_drop]
  rw [readerBehind, size_putEach aligned, Nat.add_sub_cancel_left, bytes_putEach aligned, split,
    ← List.append_assoc, size, ← List.length_append, List.drop_left]

/-- Items are put on the four-byte grid behind what is there, and if all counts have room in their
words, the matching reads of what was appended give them back, each behind as many bytes as were
appended up to its item; then nothing remains. -/
theorem reads_back {p : Parcel} (aligned : p.size % 4 = 0) {items : List Item}
    (countable : ∀ item ∈ items, item.Countable) :
    (∀ n, (putEach p (items.take n)).size % 4 = 0 ∧
      (putEach p (items.take n)).bytes <+: (putEach p (items.take (n + 1))).bytes) ∧
    ∀ width, (putEach p items).size < 1 <<< width → ∀ reads : List (ItemType × Item),
      items.Forall₂ (fun item read => item.ReadsAs read.1 read.2) reads →
        ItemType.readEach ⟨width, 0, (putEach p items).bytes.drop p.size⟩ (reads.map Prod.fst) =
          (reads.mapIdx fun n read => (read.2, readerBehind width p items (n + 1)), none) ∧
        (readerBehind width p items items.length).remaining = 0 := by
  refine ⟨fun n => ⟨putEach_aligned aligned _, putEach_prefix aligned ?_⟩, ?_⟩
  · exact List.take_prefix_take_left (Nat.le_add_right n 1)
  · intro width inWord reads matching
    rw [size_putEach aligned] at inWord
    have start : (putEach p items).bytes.drop p.size = items.flatMap encode := by
      rw [bytes_putEach aligned, size, List.drop_left]
    have read := readEach_flatMap matching countable width 0 (by omega)
    simp only [Nat.zero_add] at read
    simp only [start, read, readerBehind_eq width aligned, List.drop_length, Reader.remaining,
      List.flatMap_nil, List.length_nil, and_self]

/-- An absent text that is read as a text, a byte array with padding behind it, and a number. -/
theorem reads_back_absent_text :
    let p : Parcel := ⟨[1, 2, 3, 4]⟩
    let items : List Item := [.optionalText none, .bytes (some [7]), .long (-1)]
    let values : List Item := [.text "", .bytes (some [7]), .long (-1)]
    p.size % 4 = 0 ∧ (∀ item ∈ items, item.Countable) ∧ (putEach p items).size < 1 <<< 64 ∧
      items.Forall₂ (fun item read => item.ReadsAs read.1 read.2)
        [(.text, .text ""), (.bytes, .bytes (some [7])), (.long, .long (-1))] ∧
      ItemType.readEach ⟨64, 0, (putEach p items).bytes.drop p.size⟩ [.text, .bytes, .long] =
        (values.mapIdx fun n value => (value, readerBehind 64 p items (n + 1)), none) := by
  intro p items values
  have aligned : p.size % 4 = 0 := by decide
  have countable : ∀ item ∈ items, item.Countable := by simp [items, Countable]
  have inWord : (putEach p items).size < 1 <<< 64 := by decide
  have matching : items.Forall₂ (fun item read => item.ReadsAs read.1 read.2)
      [(.text, .text ""), (.bytes, .bytes (some [7])), (.long, .long (-1))] :=
    .cons (.text none) (.cons (.same _) (.cons (.same _) .nil))
  exact ⟨aligned, countable, inWord, matching,
    ((reads_back aligned countable).2 64 inWord _ matching).1⟩

end Item

end StorageBus.Parcel
