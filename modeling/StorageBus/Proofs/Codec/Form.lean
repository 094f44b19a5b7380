import StorageBus.Proofs.Codec.Delimiting

/-!
# Forms of items

The forms that an item can take in a parcel, said without the reader. A number has one form, but a
truth value is any word, an absent text is also an empty one, padding may be anything, and a record
is any message that decodes to it. The reads take exactly these forms off the front of bytes.

## Main definitions

* `IntForm`, `BoolForm`, `CountForm`, `OptionalTextForm`, `TextForm`, `TokenForm`, `RecordForm` —
  the forms of items.
* `Accepts` — a read that takes exactly the forms of a value.

## Main results

* `Accepts.bool`, `Accepts.text`, `Accepts.token`, `Accepts.record` — what the reads accept.
* `Accepts.unique` — bytes start with at most one form.
-/
namespace StorageBus

namespace Parcel

/-! ## Forms of items -/

/-- A number is its word, least significant byte first. -/
def IntForm (v : Int32) (bs : Bytes) : Prop := bs = Word.encode 4 v.toUInt32.toNat

/-- A truth value is any word, and only zero stands for false. -/
def BoolForm (v : Bool) (bs : Bytes) : Prop := ∃ word, IntForm word bs ∧ (v = true ↔ word ≠ 0)

/-- A count is a word that is not negative. -/
def CountForm (n : Nat) (bs : Bytes) : Prop := n < 1 <<< 31 ∧ IntForm (Int32.ofNat n) bs

/-- An absent text is the number `-1`. Any other is the count of its units, the units, a zero unit
and padding. -/
inductive OptionalTextForm : Option String → Bytes → Prop
  | absent {word : Bytes} (absent : IntForm (-1) word) : OptionalTextForm none word
  | present {text : String} {count padded : Bytes}
    (counted : CountForm (Text.Utf16.encode text).length count)
    (pads : Padded (Takes.textContent text) padded) :
    OptionalTextForm (some text) (count ++ padded)

/-- A text may be absent where it is empty. -/
def TextForm (text : String) (bs : Bytes) : Prop := ∃ v, OptionalTextForm v bs ∧ v.getD "" = text

/-- A token is a text that is not absent. -/
def TokenForm (descriptor : String) (bs : Bytes) : Prop := OptionalTextForm (some descriptor) bs

/-- An absent record is the number zero. Any other is the number one, the length of a message that
decodes to the record, the message and padding. -/
inductive RecordForm {α : Type} (schema : Message.Schema α) : Option α → Bytes → Prop
  | absent {flag : Bytes} (absent : IntForm 0 flag) : RecordForm schema none flag
  | present {record : α} {flag count body padded : Bytes} (present : IntForm 1 flag)
    (counted : CountForm body.length count) (decodes : schema.decode body = .ok record)
    (pads : Padded body padded) : RecordForm schema (some record) (flag ++ (count ++ padded))

/-! ## Reads and forms -/

theorem ok_of_bind {ε σ α β : Type} {m : EStateM ε σ α} {f : α → EStateM ε σ β} {s t : σ} {b : β}
    (h : (m >>= f) s = .ok b t) : ∃ a u, m s = .ok a u ∧ f a u = .ok b t := by
  cases first : m s with
  | ok a u =>
    rw [bind_of_ok first] at h
    exact ⟨a, u, rfl, h⟩
  | error e u =>
    rw [bind_of_error first] at h
    cases h

variable {α β : Type}

/-- The read takes exactly the forms of a value off the front of bytes and gives the value. None of
these forms is longer than so many items can be. -/
structure Accepts (items : Nat) (m : Read α) (form : α → Bytes → Prop) : Prop where
  form_of_ok : ∀ {position bytes v after}, m ⟨64, position, bytes⟩ = .ok v after →
    ∃ taken rest, bytes = taken ++ rest ∧ form v taken ∧ after = ⟨64, position + taken.length, rest⟩
  takes : ∀ {v bs}, form v bs → Takes m bs v
  length_le : ∀ {v bs}, form v bs → bs.length ≤ items * maxItemSize

namespace Accepts

theorem congr {items : Nat} {m : Read α} {form other : α → Bytes → Prop} (h : Accepts items m form)
    (same : ∀ v bs, form v bs ↔ other v bs) : Accepts items m other := by
  obtain rfl : form = other := funext fun v => funext fun bs => propext (same v bs)
  exact h

theorem mono {items more : Nat} {m : Read α} {form : α → Bytes → Prop} (h : Accepts items m form)
    (le : items ≤ more) : Accepts more m form where
  form_of_ok := h.form_of_ok
  takes := h.takes
  length_le hasForm := Nat.le_trans (h.length_le hasForm) (Nat.mul_le_mul_right _ le)

/-- One item after the other. -/
theorem bind {items more : Nat} {m : Read α} {f : α → Read β} {form : α → Bytes → Prop}
    {behind : α → β → Bytes → Prop} (h : Accepts items m form)
    (g : ∀ a, Accepts more (f a) (behind a)) :
    Accepts (items + more) (m >>= f)
      (fun b bs => ∃ a front back, bs = front ++ back ∧ form a front ∧ behind a b back) where
  form_of_ok := by
    intro position bytes b after ok
    obtain ⟨a, mid, first, second⟩ := ok_of_bind ok
    obtain ⟨front, rest, rfl, hasForm, rfl⟩ := h.form_of_ok first
    obtain ⟨back, rest, rfl, hasForm', rfl⟩ := (g a).form_of_ok second
    refine ⟨front ++ back, rest, by simp, ⟨a, front, back, rfl, hasForm, hasForm'⟩, ?_⟩
    simp [Nat.add_assoc]
  takes := by
    rintro b bs ⟨a, front, back, rfl, hasForm, hasForm'⟩
    exact (h.takes hasForm).bind ((g a).takes hasForm')
  length_le := by
    rintro b bs ⟨a, front, back, rfl, hasForm, hasForm'⟩
    have := h.length_le hasForm
    have := (g a).length_le hasForm'
    rw [List.length_append, Nat.add_mul]
    omega

theorem map {items : Nat} {m : Read α} {form : α → Bytes → Prop} (h : Accepts items m form)
    (f : α → β) : Accepts items (do return f (← m)) (fun b bs => ∃ a, form a bs ∧ f a = b) where
  form_of_ok := by
    intro position bytes b after ok
    obtain ⟨a, mid, first, second⟩ := ok_of_bind ok
    obtain ⟨taken, rest, rfl, hasForm, rfl⟩ := h.form_of_ok first
    cases second
    exact ⟨taken, rest, rfl, ⟨a, hasForm, rfl⟩, rfl⟩
  takes := by
    rintro b bs ⟨a, hasForm, rfl⟩
    exact (h.takes hasForm).bind_pure rfl
  length_le := by
    rintro b bs ⟨a, hasForm, rfl⟩
    exact h.length_le hasForm

/-! ### Whole bytes -/

section

variable {items : Nat} {m : Read α} {form : α → Bytes → Prop}

theorem ok_iff (h : Accepts items m form) (few : items * maxItemSize < 1 <<< 64) {bytes : Bytes}
    {v : α} {after : Reader} : m (Reader.ofBytes bytes) = .ok v after ↔
      ∃ taken rest, bytes = taken ++ rest ∧ form v taken ∧ after = ⟨64, taken.length, rest⟩ := by
  constructor
  · intro ok
    obtain ⟨taken, rest, bytes_eq, hasForm, after_eq⟩ := h.form_of_ok ok
    exact ⟨taken, rest, bytes_eq, hasForm, by rw [after_eq, Nat.zero_add]⟩
  · rintro ⟨taken, rest, rfl, hasForm, rfl⟩
    have short := h.length_le hasForm
    have read := h.takes hasForm 64 0 rest (by omega)
    rwa [Nat.zero_add] at read

/-- Bytes start with a form of at most one value, and with at most one such form. -/
theorem unique (h : Accepts items m form) (few : items * maxItemSize < 1 <<< 64) {v w : α}
    {bs cs rest rest' : Bytes} (first : form v bs) (second : form w cs)
    (same : bs ++ rest = cs ++ rest') : v = w ∧ bs = cs ∧ rest = rest' := by
  have one := (h.ok_iff few).mpr ⟨bs, rest, rfl, first, rfl⟩
  have other := (h.ok_iff few).mpr ⟨cs, rest', rfl, second, rfl⟩
  rw [same, other] at one
  injection one with value after
  injection after with width position behind
  exact ⟨value.symm, List.append_inj_left same position.symm, behind.symm⟩

end

/-! ### Numbers -/

theorem take_ok {item : Shape} {n width position : Nat} {bytes taken : Bytes} {after : Reader}
    (ok : Reader.take item n ⟨width, position, bytes⟩ = .ok taken after) :
    ∃ rest, bytes = taken ++ rest ∧ taken.length = n ∧ after = ⟨width, position + n, rest⟩ := by
  simp only [Reader.take] at ok
  split at ok
  · next front rest split =>
    obtain ⟨rfl, length⟩ := splitBytes?_eq_some split
    split at ok
    · obtain ⟨rfl, rfl⟩ := EStateM.Result.ok.inj ok
      exact ⟨rest, rfl, length, rfl⟩
    · cases ok
  · cases ok

theorem int : Accepts 1 Reader.int IntForm where
  form_of_ok := by
    intro position bytes v after ok
    obtain ⟨word, mid, ok, last⟩ := ok_of_bind ok
    obtain ⟨four, mid', ok, middle⟩ := ok_of_bind ok
    obtain ⟨rest, rfl, length, rfl⟩ := take_ok ok
    cases middle
    cases last
    have small : Word.value four < 2 ^ 32 := by
      have := Word.value_lt four
      rwa [length] at this
    refine ⟨four, rest, rfl, ?_, by rw [length]⟩
    rw [IntForm, UInt32.toUInt32_toInt32, UInt32.toNat_ofNat', Nat.mod_eq_of_lt small, ← length,
      Word.encode_value]
  takes := by
    rintro v bs rfl
    exact .int v
  length_le := by
    rintro v bs rfl
    rw [Word.length_encode]
    decide

theorem bool : Accepts 1 Reader.bool BoolForm := by
  refine (int.map (· != 0)).congr fun v bs => ?_
  refine exists_congr fun word => and_congr_right fun _ => ?_
  cases v <;> simp

/-! ### Texts -/

/-- A length, or none for an absent item. -/
theorem length? (item : Shape) : Accepts 1 (Reader.length? item) (fun n bs => match n with
    | none => IntForm (-1) bs
    | some n => CountForm n bs) where
  form_of_ok := by
    intro position bytes n after ok
    obtain ⟨v, mid, first, second⟩ := ok_of_bind ok
    obtain ⟨word, rest, rfl, hasForm, rfl⟩ := int.form_of_ok first
    refine ⟨word, rest, rfl, ?_⟩
    split at second
    · next none =>
      subst none
      cases second
      exact ⟨hasForm, rfl⟩
    · split at second
      · cases second
      · next nonneg =>
        cases second
        have low : 0 ≤ v.toInt := by
          rw [Int32.lt_iff_toInt_lt] at nonneg
          simpa using nonneg
        have high : v.toInt.toNat < 2 ^ 31 := by
          have := v.toInt_lt
          omega
        have same : Int32.ofNat v.toInt.toNat = v := by
          apply Int32.toInt_inj.mp
          rw [Int32.toInt_ofNat_of_lt high, Int.toNat_of_nonneg low]
        exact ⟨⟨high, same.symm ▸ hasForm⟩, rfl⟩
  takes := by
    intro n bs hasForm
    cases n with
    | none =>
      obtain rfl := hasForm
      exact .length?_absent item
    | some n =>
      obtain ⟨small, rfl⟩ := hasForm
      rw [Int32.toUInt32_ofNat']
      exact .length? item small
  length_le := by
    intro n bs hasForm
    cases n with
    | none => exact int.length_le hasForm
    | some n => exact int.length_le hasForm.2

theorem flatMap_unitsOnto (seen : List UInt16) {bs : Bytes} {n : Nat}
    (even : bs.length = n * 2) :
    (Reader.unitsOnto seen bs).flatMap (fun u => Word.encode 2 u.toNat) =
        seen.reverse.flatMap (fun u => Word.encode 2 u.toNat) ++ bs ∧
      (Reader.unitsOnto seen bs).length = seen.length + n := by
  fun_induction Reader.unitsOnto seen bs generalizing n with
  | case1 seen low high bs ih =>
    have word : Word.encode 2 (UInt16.ofNat (Word.value [low, high])).toNat = [low, high] := by
      have small : Word.value [low, high] < 2 ^ 16 := Word.value_lt [low, high]
      rw [UInt16.toNat_ofNat', Nat.mod_eq_of_lt small]
      exact Word.encode_value [low, high]
    simp only [List.length_cons] at even
    obtain ⟨bytes, length⟩ := ih (n := n - 1) (by omega)
    refine ⟨?_, ?_⟩
    · rw [bytes, List.reverse_cons, List.flatMap_append, List.flatMap_singleton, word]
      simp
    · rw [length, List.length_cons]
      omega
  | case2 bs seen short =>
    match bs with
    | [] =>
      obtain rfl : n = 0 := by
        rw [List.length_nil] at even
        omega
      simp
    | [low] =>
      simp only [List.length_cons, List.length_nil] at even
      omega
    | low :: high :: bs => exact absurd rfl (short low high bs)

/-- The bytes of a text are the only ones of their length that are read as the text. -/
theorem eq_textContent {n : Nat} {bs : Bytes} {text : String} (length : bs.length = (n + 1) * 2)
    (ok : Reader.terminated n (Reader.units bs) = .ok text) :
    n = (Text.Utf16.encode text).length ∧ bs = Takes.textContent text := by
  obtain ⟨bytes, count⟩ := flatMap_unitsOnto [] length
  rw [Reader.units] at ok
  generalize Reader.unitsOnto [] bs = us at ok bytes count
  rw [List.length_nil, Nat.zero_add] at count
  unfold Reader.terminated at ok
  split at ok
  · cases ok
  · next terminator last =>
    split at ok
    · cases ok
    · next zero =>
      split at ok
      · cases ok
      · next found decoded =>
        obtain rfl : found = text := Except.ok.inj ok
        -- the units in front are those of the text, and the one behind them is zero
        have front := Text.Utf16.eq_encode_of_decode decoded
        obtain ⟨inside, value⟩ := List.getElem?_eq_some_iff.mp last
        have back : us.drop n = [0] := by
          rw [List.drop_eq_getElem_cons inside, List.drop_of_length_le (by omega), value]
          simpa using zero
        have split : us = Text.Utf16.encode found ++ [0] := by
          rw [← front, ← back, List.take_append_drop]
        refine ⟨?_, ?_⟩
        · rw [← front, List.length_take]
          omega
        · rw [← List.nil_append bs, ← List.flatMap_nil, ← List.reverse_nil, ← bytes, split,
            List.flatMap_append]
          rfl

theorem roundUpWithin_eq {n : Nat} (small : n ≤ 1 <<< 33) :
    Reader.roundUpWithin 64 n = roundUp n := by
  have inWord : n + 3 < 1 <<< 64 := Nat.lt_of_le_of_lt (Nat.add_le_add_right small 3) (by decide)
  rw [Reader.roundUpWithin, Nat.mod_eq_of_lt inWord, roundUp]

theorem length_of_count {n : Nat} {bs : Bytes} (h : CountForm n bs) : bs.length = 4 := by
  rw [h.2, Word.length_encode]

theorem optionalText : Accepts 1 Reader.optionalText OptionalTextForm where
  form_of_ok := by
    intro position bytes v after ok
    obtain ⟨n, mid, first, ok⟩ := ok_of_bind ok
    obtain ⟨count, rest, rfl, counted, rfl⟩ := (length? .text).form_of_ok first
    cases n with
    | none =>
      cases ok
      exact ⟨count, rest, rfl, .absent counted, rfl⟩
    | some n =>
      have small : n < 1 <<< 31 := counted.1
      have size : Reader.textSize? 64 n = some ((n + 1) * 2) := by
        rw [Reader.textSize?, if_pos ⟨by omega, by omega⟩]
      simp only at ok
      rw [bind_of_ok (m := get) rfl, size] at ok
      simp only at ok
      obtain ⟨padded, mid, second, ok⟩ := ok_of_bind ok
      obtain ⟨rest, rfl, length, rfl⟩ := take_ok second
      rw [roundUpWithin_eq (by omega)] at length
      cases read : Reader.terminated n (Reader.units (padded.take ((n + 1) * 2))) with
      | error e =>
        rw [read] at ok
        cases ok
      | ok text =>
        rw [read] at ok
        cases ok
        have longer := le_roundUp ((n + 1) * 2)
        have content : (padded.take ((n + 1) * 2)).length = (n + 1) * 2 := by
          rw [List.length_take]
          omega
        obtain ⟨rfl, bytes⟩ := eq_textContent content read
        have pads := Padded.of_length_eq length
        rw [bytes] at pads
        refine ⟨count ++ padded, rest, by simp, .present counted pads, ?_⟩
        rw [roundUpWithin_eq (by omega), List.length_append, length, Nat.add_assoc]
  takes := by
    intro v bs hasForm
    cases hasForm with
    | absent hasForm =>
      obtain rfl := hasForm
      exact .optionalText_absent
    | present counted pads =>
      obtain ⟨small, rfl⟩ := counted
      rw [Int32.toUInt32_ofNat']
      exact .optionalText small pads
  length_le := by
    intro v bs hasForm
    cases hasForm with
    | absent hasForm => exact int.length_le hasForm
    | @present text count padded counted pads =>
      have small := counted.1
      have shorter := roundUp_lt (Takes.textContent text).length
      have content := Takes.length_textContent text
      rw [List.length_append, length_of_count counted, pads.length_eq, maxItemSize]
      omega

theorem text : Accepts 1 Reader.text TextForm := optionalText.map (·.getD "")

theorem token : Accepts 1 Reader.token TokenForm where
  form_of_ok := by
    intro position bytes v after ok
    obtain ⟨text, mid, first, ok⟩ := ok_of_bind ok
    obtain ⟨taken, rest, rfl, hasForm, rfl⟩ := optionalText.form_of_ok first
    cases text with
    | none => cases ok
    | some text =>
      cases ok
      exact ⟨taken, rest, rfl, hasForm, rfl⟩
  takes hasForm := (optionalText.takes hasForm).bind_pure rfl
  length_le hasForm := optionalText.length_le hasForm

/-! ### Records -/

/-- A byte array that is not absent. -/
theorem bytes_ok {position : Nat} {bytes body : Bytes} {after : Reader}
    (ok : Reader.bytes ⟨64, position, bytes⟩ = .ok (some body) after) :
    ∃ count padded rest, bytes = count ++ padded ++ rest ∧ CountForm body.length count ∧
      Padded body padded ∧ after = ⟨64, position + (count ++ padded).length, rest⟩ := by
  obtain ⟨n, mid, first, ok⟩ := ok_of_bind ok
  obtain ⟨count, rest, rfl, counted, rfl⟩ := (length? .bytes).form_of_ok first
  cases n with
  | none => cases ok
  | some n =>
    have small : n < 1 <<< 31 := counted.1
    simp only at ok
    rw [bind_of_ok (m := get) rfl] at ok
    obtain ⟨padded, mid, second, ok⟩ := ok_of_bind ok
    obtain ⟨rest, rfl, length, rfl⟩ := take_ok second
    cases ok
    rw [roundUpWithin_eq (by omega)] at length
    have longer := le_roundUp n
    have content : (padded.take n).length = n := by
      rw [List.length_take]
      omega
    refine ⟨count, padded, rest, by simp, ?_, .of_length_eq length, ?_⟩
    · rw [content]
      exact counted
    · rw [roundUpWithin_eq (by omega), List.length_append, length, Nat.add_assoc]

theorem record (schema : Message.Schema α) :
    Accepts 1 (Reader.record schema) (RecordForm schema) where
  form_of_ok := by
    intro position bytes v after ok
    obtain ⟨n, mid, first, ok⟩ := ok_of_bind ok
    obtain ⟨flag, rest, rfl, hasForm, rfl⟩ := int.form_of_ok first
    split at ok
    · next zero =>
      subst zero
      cases ok
      exact ⟨flag, rest, rfl, .absent hasForm, rfl⟩
    · split at ok
      · next one =>
        subst one
        obtain ⟨body, mid, second, ok⟩ := ok_of_bind ok
        cases body with
        | none => cases ok
        | some body =>
          obtain ⟨count, padded, rest, rfl, counted, pads, rfl⟩ := bytes_ok second
          simp only at ok
          cases decodes : schema.decode body with
          | error e =>
            rw [decodes] at ok
            cases ok
          | ok record =>
            rw [decodes] at ok
            cases ok
            refine ⟨flag ++ (count ++ padded), rest, by simp,
              .present hasForm counted decodes pads, ?_⟩
            simp [Nat.add_assoc]
      · cases ok
  takes := by
    intro v bs hasForm
    cases hasForm with
    | absent hasForm =>
      obtain rfl := hasForm
      exact (Takes.int 0).bind_pure rfl
    | present hasForm counted decodes pads =>
      obtain rfl := hasForm
      obtain ⟨small, rfl⟩ := counted
      rw [Int32.toUInt32_ofNat']
      exact .record small decodes pads
  length_le := by
    intro v bs hasForm
    cases hasForm with
    | absent hasForm => exact int.length_le hasForm
    | @present record flag count body padded hasForm counted decodes pads =>
      have small := counted.1
      have shorter := roundUp_lt body.length
      rw [List.length_append, List.length_append, hasForm, Word.length_encode,
        length_of_count counted, pads.length_eq, maxItemSize]
      omega

end Accepts

end Parcel

end StorageBus
