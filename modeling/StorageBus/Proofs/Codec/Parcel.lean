import StorageBus.Parcel.Reader
import StorageBus.Proofs.Codec.Utf16
import StorageBus.Proofs.Codec.Message

/-!
# Parcels read back

Behind bytes on the four-byte grid every `put` appends bytes of its own, again a multiple of four,
that do not depend on what is there before. The matching read takes exactly these bytes off the
front, whatever follows. Counts wrap in words of 32 bits, but an item whose count wraps has more
bytes than such a word can count.

## Main definitions

* `Padded` — content with padding.
* `Appends` — what a `put` appends.
* `Takes` — what a read takes off and what it gives.
* `Conveys` — a `put` and a read that fit together.

## Main results

* `Conveys.int`, `Conveys.bool`, `Conveys.text`, `Conveys.token`, `Conveys.record`, … — for items.
* `Conveys.comp` — for one item after the other.
-/
namespace StorageBus

theorem roundUp_add {m : Nat} (h : m % 4 = 0) (n : Nat) : roundUp (m + n) = m + roundUp n := by
  unfold roundUp
  omega

theorem align_append {front : Bytes} (h : front.length % 4 = 0) (bs : Bytes) :
    align (front ++ bs) = front ++ align bs := by
  simp only [align, List.length_append, roundUp_add h, List.append_assoc]
  congr 3
  omega

namespace Parcel

/-! ## Padding -/

/-- The content, and behind it bytes of any kind up to the next multiple of four. -/
def Padded (content padded : Bytes) : Prop :=
  ∃ padding, padded = content ++ padding ∧ padding.length < 4 ∧ padded.length % 4 = 0

namespace Padded

variable {content padded : Bytes}

theorem align (content : Bytes) : Padded content (align content) := by
  have longer := le_roundUp content.length
  have shorter := roundUp_lt content.length
  refine ⟨_, rfl, ?_, ?_⟩
  · rw [List.length_replicate]
    omega
  · exact length_align content ▸ roundUp_mod_four _

theorem length_eq (h : Padded content padded) : padded.length = roundUp content.length := by
  obtain ⟨padding, rfl, short, aligned⟩ := h
  rw [List.length_append] at aligned ⊢
  unfold roundUp
  omega

theorem take_eq (h : Padded content padded) : padded.take content.length = content := by
  obtain ⟨padding, rfl, -, -⟩ := h
  exact List.take_left

/-- Any bytes with the right length are padded content. -/
theorem of_length_eq {n : Nat} (length : padded.length = roundUp n) :
    Padded (padded.take n) padded := by
  have longer := le_roundUp n
  have shorter := roundUp_lt n
  refine ⟨padded.drop n, (List.take_append_drop n padded).symm, ?_, ?_⟩
  · rw [List.length_drop]
    omega
  · exact length ▸ roundUp_mod_four n

end Padded

/-! ## Appending -/

/-- Behind bytes on the four-byte grid, `put` appends these bytes, a multiple of four. -/
structure Appends (put : Parcel → Parcel) (bytes : Bytes) : Prop where
  aligned : bytes.length % 4 = 0
  bytes_put : ∀ p : Parcel, p.size % 4 = 0 → (put p).bytes = p.bytes ++ bytes

namespace Appends

theorem comp {first second : Parcel → Parcel} {bs cs : Bytes} (h : Appends first bs)
    (g : Appends second cs) : Appends (fun p => second (first p)) (bs ++ cs) where
  aligned := by
    have := h.aligned
    have := g.aligned
    simp only [List.length_append]
    omega
  bytes_put p hp := by
    have size : (first p).size % 4 = 0 := by
      have := h.aligned
      simp only [Parcel.size, h.bytes_put p hp, List.length_append] at hp ⊢
      omega
    rw [g.bytes_put _ size, h.bytes_put p hp, List.append_assoc]

theorem append {bs : Bytes} (aligned : bs.length % 4 = 0) : Appends (fun p => p.append bs) bs where
  aligned := aligned
  bytes_put _ _ := rfl

theorem unsigned (v : UInt32) : Appends (putUnsigned v) (Word.encode 4 v.toNat) :=
  append (by rw [Word.length_encode])

theorem int (v : Int32) : Appends (putInt v) (Word.encode 4 v.toUInt32.toNat) := unsigned _

theorem long (v : Int64) : Appends (putLong v) (Word.encode 8 v.toUInt64.toNat) :=
  append (by rw [Word.length_encode])

/-- A count followed by content with its padding. -/
theorem counted (n : Nat) (content : Bytes) :
    Appends (fun p => ((p.putCount n).append content).pad)
      (Word.encode 4 (UInt32.ofNat n).toNat ++ align content) where
  aligned := by
    simp only [List.length_append, Word.length_encode, length_align]
    have := roundUp_mod_four content.length
    omega
  bytes_put p hp := by
    have front : (p.bytes ++ Word.encode 4 (UInt32.ofNat n).toNat).length % 4 = 0 := by
      simp only [Parcel.size] at hp
      simp only [List.length_append, Word.length_encode]
      omega
    simp only [bytes_pad, bytes_append, putCount, putUnsigned]
    rw [align_append front, List.append_assoc]

end Appends

/-! ## Reading -/

/-- The read takes exactly these bytes off the front of any others and gives the value, as long as
a machine word can count them. -/
def Takes {α : Type} (read : Read α) (bytes : Bytes) (v : α) : Prop :=
  ∀ (width position : Nat) (rest : Bytes), position + bytes.length < 1 <<< width →
    read ⟨width, position, bytes ++ rest⟩ = .ok v ⟨width, position + bytes.length, rest⟩

theorem bind_of_ok {ε σ α β : Type} {m : EStateM ε σ α} {f : α → EStateM ε σ β} {s t : σ} {a : α}
    (h : m s = .ok a t) : (m >>= f) s = f a t := by
  simp [bind, EStateM.bind, h]

namespace Takes

variable {α β : Type}

theorem pure (v : α) : Takes (Pure.pure v) [] v := fun _ _ _ _ => rfl

theorem bind {m : Read α} {f : α → Read β} {bs cs : Bytes} {a : α} {b : β} (h : Takes m bs a)
    (g : Takes (f a) cs b) : Takes (m >>= f) (bs ++ cs) b := by
  intro width position rest inWord
  simp only [List.length_append] at inWord
  rw [List.append_assoc, bind_of_ok (h width position (cs ++ rest) (by omega)),
    g width (position + bs.length) rest (by omega)]
  simp [Nat.add_assoc]

theorem bind_pure {m : Read α} {g : α → Read β} {bs : Bytes} {a : α} {b : β} (h : Takes m bs a)
    (same : g a = Pure.pure b) : Takes (m >>= g) bs b := by
  have last : Takes (g a) [] b := by
    rw [same]
    exact pure b
  have read := bind h last
  rwa [List.append_nil] at read

theorem take (item : Shape) {n : Nat} {bs : Bytes} (h : bs.length = n) :
    Takes (Reader.take item n) bs bs := by
  intro width position rest inWord
  subst h
  simp only [Reader.take, splitBytes?_append, if_pos inWord]

theorem unsignedAs (item : Shape) (v : UInt32) :
    Takes (Reader.unsignedAs item) (Word.encode 4 v.toNat) v := by
  have value : UInt32.ofNat (Word.value (Word.encode 4 v.toNat)) = v := by
    have small : v.toNat < Word.range 4 := v.toNat_lt
    rw [Word.value_encode, Nat.mod_eq_of_lt small, UInt32.ofNat_toNat]
  exact bind_pure (take item (Word.length_encode 4 v.toNat)) (congrArg Pure.pure value)

theorem int (v : Int32) : Takes Reader.int (Word.encode 4 v.toUInt32.toNat) v :=
  bind_pure (unsignedAs .int v.toUInt32) (congrArg Pure.pure (Int32.toInt32_toUInt32 v))

theorem unsigned (v : UInt32) : Takes Reader.unsigned (Word.encode 4 v.toNat) v :=
  unsignedAs .unsigned v

theorem long (v : Int64) : Takes Reader.long (Word.encode 8 v.toUInt64.toNat) v := by
  have value : (UInt64.ofNat (Word.value (Word.encode 8 v.toUInt64.toNat))).toInt64 = v := by
    have small : v.toUInt64.toNat < Word.range 8 := v.toUInt64.toNat_lt
    rw [Word.value_encode, Nat.mod_eq_of_lt small, UInt64.ofNat_toNat, Int64.toInt64_toUInt64]
  exact bind_pure (take .long (Word.length_encode 8 _)) (congrArg Pure.pure value)

theorem bool (v : Bool) :
    Takes Reader.bool (Word.encode 4 (if v then 1 else 0 : UInt32).toNat) v := by
  cases v with
  | false => exact bind_pure (int 0) rfl
  | true => exact bind_pure (int 1) rfl

/-- A count that its word holds. -/
theorem length? (item : Shape) {n : Nat} (h : n < 1 <<< 31) :
    Takes (Reader.length? item) (Word.encode 4 (UInt32.ofNat n).toNat) (some n) := by
  have toInt : (Int32.ofNat n).toInt = n := Int32.toInt_ofNat_of_lt h
  have present : Int32.ofNat n ≠ absent := by
    intro same
    have : (n : Int) = -1 := by
      rw [← toInt, same]
      rfl
    omega
  have nonneg : ¬ Int32.ofNat n < 0 := by
    rw [Int32.lt_iff_toInt_lt, toInt]
    simp
  have read := int (Int32.ofNat n)
  rw [Int32.toUInt32_ofNat'] at read
  refine bind_pure read ?_
  rw [if_neg present, if_neg nonneg, toInt, Int.toNat_natCast]

theorem length?_absent (item : Shape) :
    Takes (Reader.length? item) (Word.encode 4 absent.toUInt32.toNat) none :=
  bind_pure (int absent) (if_pos rfl)

/-- The content of an item with its padding, of which a machine word can hold the size. -/
theorem take_padded (item : Shape) {content padded : Bytes} (pads : Padded content padded)
    (width position : Nat) (rest : Bytes) (inWord : position + 4 + padded.length < 1 <<< width) :
    Reader.take item (Reader.roundUpWithin width content.length)
        ⟨width, position + 4, padded ++ rest⟩ =
      .ok padded ⟨width, position + 4 + padded.length, rest⟩ := by
  have length := pads.length_eq
  have size : Reader.roundUpWithin width content.length = padded.length := by
    have := le_roundUp content.length
    unfold Reader.roundUpWithin
    rw [Nat.mod_eq_of_lt (by omega), length, roundUp]
  rw [size]
  exact take item rfl width (position + 4) rest inWord

theorem bytes_absent :
    Takes Reader.bytes (Word.encode 4 absent.toUInt32.toNat) none :=
  bind_pure (length?_absent .bytes) rfl

theorem bytes {content padded : Bytes} (countable : content.length < 1 <<< 31)
    (pads : Padded content padded) :
    Takes Reader.bytes (Word.encode 4 (UInt32.ofNat content.length).toNat ++ padded)
      (some content) := by
  intro width position rest inWord
  rw [List.length_append, Word.length_encode] at inWord
  have count := length? .bytes countable width position (padded ++ rest)
    (by rw [Word.length_encode]; omega)
  rw [Word.length_encode] at count
  have taken := take_padded .bytes pads width position rest (by omega)
  rw [Reader.bytes, List.append_assoc, bind_of_ok count]
  simp only
  rw [bind_of_ok (m := get) rfl, bind_of_ok taken, pads.take_eq, List.length_append,
    Word.length_encode, Nat.add_assoc]
  rfl

/-! ### Texts -/

theorem unitsOnto_flatMap_encode (seen us : List UInt16) :
    Reader.unitsOnto seen (us.flatMap fun u => Word.encode 2 u.toNat) = seen.reverse ++ us := by
  induction us generalizing seen with
  | nil => simp [Reader.unitsOnto]
  | cons u us ih =>
    have value : UInt16.ofNat (Word.value (Word.encode 2 u.toNat)) = u := by
      have small : u.toNat < Word.range 2 := u.toNat_lt
      rw [Word.value_encode, Nat.mod_eq_of_lt small, UInt16.ofNat_toNat]
    have step : Reader.unitsOnto seen (Word.encode 2 u.toNat ++ us.flatMap fun u =>
        Word.encode 2 u.toNat) = Reader.unitsOnto (UInt16.ofNat (Word.value
          (Word.encode 2 u.toNat)) :: seen) (us.flatMap fun u => Word.encode 2 u.toNat) := rfl
    rw [List.flatMap_cons, step, value, ih]
    simp

/-- The units of a text with the zero unit behind them, as bytes. -/
def textContent (text : String) : Bytes :=
  ((Text.Utf16.encode text).flatMap fun u => Word.encode 2 u.toNat) ++ [0, 0]

theorem length_textContent (text : String) :
    (textContent text).length = ((Text.Utf16.encode text).length + 1) * 2 := by
  have units (us : List UInt16) :
      (us.flatMap fun u => Word.encode 2 u.toNat).length = us.length * 2 := by
    induction us with
    | nil => rfl
    | cons u us ih =>
      simp only [List.flatMap_cons, List.length_append, Word.length_encode, ih, List.length_cons]
      omega
  simp only [textContent, List.length_append, units, List.length_cons, List.length_nil]
  omega

theorem units_textContent (text : String) :
    Reader.units (textContent text) = Text.Utf16.encode text ++ [0] := by
  have zero : textContent text =
      (Text.Utf16.encode text ++ [(0 : UInt16)]).flatMap fun u => Word.encode 2 u.toNat := by
    rw [List.flatMap_append]
    rfl
  rw [zero, Reader.units, unitsOnto_flatMap_encode]
  rfl

theorem terminated_textContent (text : String) :
    Reader.terminated (Text.Utf16.encode text).length (Reader.units (textContent text)) =
      .ok text := by
  simp [Reader.terminated, units_textContent, Text.Utf16.decode_encode]

theorem optionalText_absent :
    Takes Reader.optionalText (Word.encode 4 absent.toUInt32.toNat) none :=
  bind_pure (length?_absent .text) rfl

theorem optionalText {text : String} {padded : Bytes}
    (countable : (Text.Utf16.encode text).length < 1 <<< 31)
    (pads : Padded (textContent text) padded) :
    Takes Reader.optionalText
      (Word.encode 4 (UInt32.ofNat (Text.Utf16.encode text).length).toNat ++ padded)
      (some text) := by
  intro width position rest inWord
  have longer := le_roundUp (textContent text).length
  have length := pads.length_eq
  rw [List.length_append, Word.length_encode] at inWord
  have units := length_textContent text
  have count := length? .text countable width position (padded ++ rest)
    (by rw [Word.length_encode]; omega)
  rw [Word.length_encode] at count
  have taken := take_padded .text pads width position rest (by omega)
  have size : Reader.textSize? width (Text.Utf16.encode text).length =
      some (textContent text).length := by
    rw [Reader.textSize?, if_pos ⟨by omega, by omega⟩, units]
  rw [Reader.optionalText, List.append_assoc, bind_of_ok count]
  simp only
  rw [bind_of_ok (m := get) rfl, size]
  simp only
  rw [bind_of_ok taken, pads.take_eq, terminated_textContent, List.length_append,
    Word.length_encode, Nat.add_assoc]
  rfl

/-! ### Records -/

theorem record {schema : Message.Schema α} {record : α} {body padded : Bytes}
    (countable : body.length < 1 <<< 31) (decodes : schema.decode body = .ok record)
    (pads : Padded body padded) :
    Takes (Reader.record schema)
      (Word.encode 4 (1 : Int32).toUInt32.toNat ++
        (Word.encode 4 (UInt32.ofNat body.length).toNat ++ padded)) (some record) := by
  refine bind (int 1) ?_
  rw [if_neg (by decide), if_pos rfl]
  refine bind_pure (bytes countable pads) ?_
  simp only [decodes]

end Takes

/-! ## Items that are conveyed -/

/-- No item has more bytes than this if its count has room in its word. -/
def maxItemSize : Nat := 1 <<< 33

/-- What `put` appends for some items, the read takes off again, and it gives the value, if all
counts have room in their words. They do if there are no more bytes than such a word can count. -/
def Conveys {α : Type} (countable : Prop) (items : Nat) (put : Parcel → Parcel) (read : Read α)
    (v : α) : Prop :=
  ∃ bytes, Appends put bytes ∧ (bytes.length < 1 <<< 31 → countable) ∧
    (countable → Takes read bytes v ∧ bytes.length ≤ items * maxItemSize)

namespace Conveys

variable {α β : Type} {countable : Prop} {items : Nat} {put : Parcel → Parcel} {read : Read α}
  {v : α}

/-- The same with the condition in other words, and perhaps room for more items. -/
theorem mono (h : Conveys countable items put read v) {also : Prop} {more : Nat}
    (same : countable ↔ also) (le : items ≤ more) : Conveys also more put read v := by
  obtain ⟨bytes, appends, short, takes⟩ := h
  refine ⟨bytes, appends, fun few => same.mp (short few), fun counted => ?_⟩
  obtain ⟨takes, size⟩ := takes (same.mpr counted)
  exact ⟨takes, Nat.le_trans size (Nat.mul_le_mul_right _ le)⟩

theorem comp {also : Prop} {more : Nat} {h : Parcel → Parcel} {f : α → Read β} {b : β}
    (first : Conveys countable items put read v) (second : Conveys also more h (f v) b) :
    Conveys (countable ∧ also) (more + items) (fun p => h (put p)) (read >>= f) b := by
  obtain ⟨bs, appends, short, takes⟩ := first
  obtain ⟨cs, appends', short', takes'⟩ := second
  refine ⟨bs ++ cs, appends.comp appends', fun few => ?_, fun ⟨counted, counted'⟩ => ?_⟩
  · rw [List.length_append] at few
    exact ⟨short (by omega), short' (by omega)⟩
  · obtain ⟨takes, size⟩ := takes counted
    obtain ⟨takes', size'⟩ := takes' counted'
    refine ⟨takes.bind takes', ?_⟩
    rw [List.length_append, Nat.add_mul]
    omega

theorem bind_pure (h : Conveys countable items put read v) {f : α → Read β} {b : β}
    (same : f v = Pure.pure b) : Conveys countable items put (read >>= f) b := by
  obtain ⟨bytes, appends, short, takes⟩ := h
  refine ⟨bytes, appends, short, fun counted => ?_⟩
  exact ⟨(takes counted).1.bind_pure same, (takes counted).2⟩

theorem int (v : Int32) : Conveys True 1 (putInt v) Reader.int v :=
  ⟨_, .int v, fun _ => trivial, fun _ => ⟨.int v, by rw [Word.length_encode]; decide⟩⟩

theorem unsigned (v : UInt32) : Conveys True 1 (putUnsigned v) Reader.unsigned v :=
  ⟨_, .unsigned v, fun _ => trivial, fun _ => ⟨.unsigned v, by rw [Word.length_encode]; decide⟩⟩

theorem long (v : Int64) : Conveys True 1 (putLong v) Reader.long v :=
  ⟨_, .long v, fun _ => trivial, fun _ => ⟨.long v, by rw [Word.length_encode]; decide⟩⟩

theorem bool (v : Bool) : Conveys True 1 (putBool v) Reader.bool v :=
  ⟨_, .unsigned _, fun _ => trivial, fun _ => ⟨.bool v, by rw [Word.length_encode]; decide⟩⟩

theorem someText (text : String) :
    Conveys ((Text.Utf16.encode text).length < 1 <<< 31) 1 (putText text) Reader.optionalText
      (some text) := by
  have longer := le_roundUp (Takes.textContent text).length
  have shorter := roundUp_lt (Takes.textContent text).length
  have units := Takes.length_textContent text
  have appends := Appends.counted (Text.Utf16.encode text).length (Takes.textContent text)
  refine ⟨_, ⟨appends.aligned, fun p hp => ?_⟩, fun few => ?_,
    fun counted => ⟨.optionalText counted (.align _), ?_⟩⟩
  · rw [← appends.bytes_put p hp]
    simp [putText, putOptionalText, Takes.textContent]
  · rw [List.length_append, Word.length_encode, length_align] at few
    omega
  · rw [List.length_append, Word.length_encode, length_align, maxItemSize]
    omega

theorem optionalText (text : Option String) :
    Conveys (∀ t ∈ text, (Text.Utf16.encode t).length < 1 <<< 31) 1 (putOptionalText text)
      Reader.optionalText text := by
  cases text with
  | none =>
    refine ⟨_, .int absent, fun _ => by simp, fun _ => ⟨.optionalText_absent, ?_⟩⟩
    rw [Word.length_encode]
    decide
  | some text => exact (someText text).mono (by simp) (Nat.le_refl 1)

theorem text (text : String) :
    Conveys ((Text.Utf16.encode text).length < 1 <<< 31) 1 (putText text) Reader.text text :=
  (someText text).bind_pure rfl

theorem token (descriptor : String) :
    Conveys ((Text.Utf16.encode descriptor).length < 1 <<< 31) 1 (putToken descriptor)
      Reader.token descriptor :=
  (someText descriptor).bind_pure rfl

theorem bytes (content : Option Bytes) :
    Conveys (∀ c ∈ content, c.length < 1 <<< 31) 1 (putBytes content) Reader.bytes content := by
  cases content with
  | none =>
    refine ⟨_, .int absent, fun _ => by simp, fun _ => ⟨.bytes_absent, ?_⟩⟩
    rw [Word.length_encode]
    decide
  | some content =>
    have longer := le_roundUp content.length
    have shorter := roundUp_lt content.length
    refine ⟨_, .counted content.length content, fun few => ?_, fun counted => ?_⟩
    · rw [List.length_append, Word.length_encode, length_align] at few
      simp only [Option.mem_some_iff, forall_eq']
      omega
    · have few := counted content rfl
      refine ⟨.bytes few (.align _), ?_⟩
      rw [List.length_append, Word.length_encode, length_align, maxItemSize]
      omega

theorem record {schema : Message.Schema α} (lawful : schema.Lawful) (record : Option α) :
    Conveys (∀ r ∈ record, (schema.encode r).length < 1 <<< 31) 1 (putRecord schema record)
      (Reader.record schema) record := by
  cases record with
  | none =>
    refine ⟨_, .int 0, fun _ => by simp, fun _ => ⟨(Takes.int 0).bind_pure rfl, ?_⟩⟩
    rw [Word.length_encode]
    decide
  | some record =>
    have longer := le_roundUp (schema.encode record).length
    have shorter := roundUp_lt (schema.encode record).length
    have flag := Appends.int 1
    have body := Appends.counted (schema.encode record).length (schema.encode record)
    refine ⟨_, flag.comp body, fun few => ?_, fun counted => ?_⟩
    · simp only [List.length_append, Word.length_encode, length_align] at few
      simp only [Option.mem_some_iff, forall_eq']
      omega
    · have few := counted record rfl
      have decodes := Message.Schema.decode_encode lawful record (Nat.lt_trans few (by decide))
      refine ⟨.record few decodes (.align _), ?_⟩
      simp only [List.length_append, Word.length_encode, length_align, maxItemSize]
      omega

end Conveys

end Parcel

end StorageBus
