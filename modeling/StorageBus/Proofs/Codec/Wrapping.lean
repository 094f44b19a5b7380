import StorageBus.Proofs.Codec.Agreement

/-!
# Texts in narrow words

The size of a text is computed from the count of its units by a sum and a product that are checked,
and then rounded up by a sum that is not. In words of more than 32 bits there is room for all of
them. In words of 32 bits there is one count whose size just fits and has no room to be rounded up:
the rounded size is zero, no bytes are taken, and the text is then cut out of them.

## Main results

* `Reader.textSize?_room_iff` — the counts whose size can be rounded up.
* `Guarded.text_within_unless_wrapped` — the read of a text by its count.
* `Guarded.text_wraps` — the one count, in words of 32 bits.
-/
namespace StorageBus.Parcel

/-- The count of units whose size has no room to be rounded up in words of 32 bits. -/
def wrappingCount : Nat := 0x7FFFFFFE

/-- A size that a word holds can also be rounded up, but for one count in words of 32 bits. -/
theorem Reader.textSize?_room_iff {m : Machine} (wide : 32 ≤ m.width) {count : Nat}
    (small : count < 1 <<< 31) :
    (∀ size ∈ textSize? m.width count, size + 3 < m.size) ↔
      ¬ (m.width = 32 ∧ count = wrappingCount) := by
  have bound := m.le_size wide
  have fits (size : Nat) : size ∈ textSize? m.width count ↔
      (count + 1) * 2 < m.size ∧ size = (count + 1) * 2 := by
    rw [textSize?]
    split
    · next both => simp [Machine.size, both.2, eq_comm]
    · next neither =>
      have first : count + 1 < m.size := by omega
      have exceeds : ¬ (count + 1) * 2 < m.size := fun inWord => neither ⟨first, inWord⟩
      simp [exceeds]
  simp only [fits, and_imp, forall_eq_apply_imp_iff, wrappingCount]
  by_cases narrow : m.width = 32
  · have size : m.size = 1 <<< 32 := by rw [Machine.size, narrow]
    simp only [size, narrow, true_and]
    omega
  · have large : 1 <<< 33 ≤ m.size := m.le_size (by omega)
    simp only [narrow, false_and, not_false_iff, iff_true]
    omega

namespace Guarded

variable {m : Machine}

/-! ## Counts with room -/

/-- The bytes of a text are refused, or as many are taken as its size rounded up. -/
theorem textBytes_cases {count : Nat}
    (room : ∀ size ∈ Reader.textSize? m.width count, size + 3 < m.size) {c : Cursor}
    (short : c.data.length < m.size) (placed : c.Placed) :
    (∃ e after, textBytes m count c = .error (.malformed e) after) ∨
      ∃ taken after, textBytes m count c = .ok ((count + 1) * 2, taken) after ∧
        taken.length = StorageBus.roundUp ((count + 1) * 2) := by
  cases sized : Reader.textSize? m.width count with
  | none => exact .inl ⟨_, c, by rw [textBytes_of_none sized]; rfl⟩
  | some size =>
    have small := room size sized
    obtain rfl := eq_of_textSize? sized
    rw [textBytes_of_some sized small]
    have taking := Agrees.take .text (roundUp_mod_four ((count + 1) * 2)) c short placed
    generalize takenEq : take m .text (StorageBus.roundUp ((count + 1) * 2)) c = x at taking
    generalize Reader.take .text _ _ = y at taking
    cases taking with
    | ok reaches length =>
      rw [bind_of_ok takenEq]
      exact .inr ⟨_, _, rfl, length⟩
    | error reaches found =>
      rw [bind_of_error takenEq]
      exact .inl ⟨_, _, rfl⟩

/-- The read of a text from behind its count on. -/
theorem optionalText_of_length? {c behind : Cursor} {count : Nat}
    (counted : length? m .text c = .ok (some count) behind) :
    optionalText m c =
      (do
        let (size, taken) ← textBytes m count
        return some (← textWithin count size taken)) behind := by
  rw [optionalText, bind_of_ok counted]

/-! ## The count without room -/

theorem roundUp_wrapped (wraps : Bool) :
    roundUp ⟨32, wraps⟩ ((wrappingCount + 1) * 2) = if wraps then pure 0 else throw .overflow := by
  cases wraps <;> rfl

theorem textBytes_wrapped (narrow : m.width = 32) {c : Cursor} (short : c.data.length < m.size)
    (placed : c.Placed) :
    textBytes m wrappingCount c =
      if m.wraps then .ok ((wrappingCount + 1) * 2, []) c else .error .overflow c := by
  obtain ⟨width, wraps⟩ := m
  cases narrow
  have sized : Reader.textSize? 32 wrappingCount = some ((wrappingCount + 1) * 2) := by decide
  have none : take ⟨32, wraps⟩ .text 0 c = .ok [] c :=
    take_of_le .text placed.within short
  simp only [textBytes, Machine.textSize?_eq, sized, roundUp_wrapped]
  cases wraps
  · rfl
  · simp only [if_true, pure_bind]
    rw [bind_of_ok none]
    rfl

/-- No bytes are taken, and the text is then cut out of them. -/
theorem textWithin_of_nil (count : Nat) (c : Cursor) :
    textWithin count ((count + 1) * 2) [] c = .error (.outside ((count + 1) * 2) 0) c := by
  have outside : ¬ (0 ≤ (count + 1) * 2 ∧ (count + 1) * 2 ≤ ([] : Bytes).length) := by
    simp
  rw [textWithin, slice, if_neg outside]
  rfl

/-- The reader that does not look finds no unit at the place of the terminator. -/
theorem optionalText_wrapped {r behind : Reader} (narrow : behind.width = 32)
    (counted : Reader.length? .text r = .ok (some wrappingCount) behind)
    (short : behind.position < 1 <<< 32) :
    Reader.optionalText r = .error (.overrun wrappingCount 0) behind := by
  obtain ⟨width, position, rest⟩ := behind
  cases narrow
  have sized : Reader.textSize? 32 wrappingCount = some ((wrappingCount + 1) * 2) := by decide
  have rounded : Reader.roundUpWithin 32 ((wrappingCount + 1) * 2) = 0 := by decide
  have none : Reader.take .text 0 ⟨32, position, rest⟩ = .ok [] ⟨32, position, rest⟩ :=
    if_pos short
  rw [Reader.optionalText, bind_of_ok counted]
  simp only []
  rw [bind_of_ok (m := MonadState.get) rfl]
  simp only [sized, rounded]
  rw [bind_of_ok none]
  rfl

/-- A text whose count has been read, in words of at least 32 bits. Any count but one is refused, or
the bytes taken are exactly its size rounded up, so that the slice of the size and the index of the
terminator lie within; the read without looks comes to the same. In words of 32 bits the size of the
one count that is left wraps to zero: nothing is taken, and the slice lies outside of it. -/
theorem text_within_unless_wrapped (wide : 32 ≤ m.width) {c behind : Cursor} {count : Nat}
    (short : c.data.length < m.size) (placed : c.Placed)
    (counted : length? m .text c = .ok (some count) behind) :
    if m.width = 32 ∧ count = wrappingCount then
      Reader.optionalText (c.reader m.width) = .error (.overrun count 0) (behind.reader m.width) ∧
      if m.wraps then
        textBytes m count behind = .ok ((count + 1) * 2, []) behind ∧
        optionalText m c = .error (.outside ((count + 1) * 2) 0) behind
      else optionalText m c = .error .overflow behind
    else
      Agree m.width c (fun _ => True) (optionalText m c) (Reader.optionalText (c.reader m.width)) ∧
      ((∃ e after, textBytes m count behind = .error (.malformed e) after ∧
          optionalText m c = .error (.malformed e) after) ∨
        ∃ taken after, textBytes m count behind = .ok ((count + 1) * 2, taken) after ∧
          taken.length = StorageBus.roundUp ((count + 1) * 2) ∧
          (count + 1) * 2 ≤ taken.length ∧
          count < (Reader.units (taken.take ((count + 1) * 2))).length) := by
  have counting := Agrees.length? .text c short placed
  rw [counted] at counting
  generalize readEq : Reader.length? .text (c.reader m.width) = y at counting
  cases counting with
  | @ok next _ reaches small =>
    have small : count < 1 <<< 31 := small count rfl
    have behindPlaced := reaches.placed
    split
    · next wrapping =>
      obtain ⟨narrow, rfl⟩ := wrapping
      have inWord : next < 1 <<< 32 := by
        have size : m.size = 1 <<< 32 := by rw [Machine.size, narrow]
        have within : next ≤ c.data.length := behindPlaced.within
        omega
      refine ⟨optionalText_wrapped narrow readEq inWord, ?_⟩
      have wrapped := textBytes_wrapped narrow (c := ⟨c.data, next⟩) short behindPlaced
      rw [optionalText_of_length? counted]
      cases wraps : m.wraps
      · rw [wraps] at wrapped
        exact bind_of_error wrapped
      · rw [wraps] at wrapped
        refine ⟨wrapped, ?_⟩
        rw [bind_of_ok wrapped]
        exact bind_of_error (textWithin_of_nil _ _)
    · next notWrapping =>
      have room := (Reader.textSize?_room_iff wide small).mpr notWrapping
      constructor
      · have same := Agrees.textOf room ⟨c.data, next⟩ short behindPlaced
        rw [optionalText_of_length? counted, Reader.optionalText, bind_of_ok readEq]
        exact same.behind reaches
      · rcases textBytes_cases room (c := ⟨c.data, next⟩) short behindPlaced with
          ⟨e, after, failed⟩ | ⟨taken, after, done, length⟩
        · refine .inl ⟨e, after, failed, ?_⟩
          rw [optionalText_of_length? counted]
          exact bind_of_error failed
        · have enough : (count + 1) * 2 ≤ taken.length := length ▸ le_roundUp _
          exact .inr ⟨taken, after, done, length, enough, lt_length_units enough⟩

/-- A text in words of 32 bits that claims one unit less than the count without room. -/
theorem text_within_unless_wrapped_neighbour :
    let m : Machine := ⟨32, true⟩
    let c : Cursor := ⟨[253, 255, 255, 127, 104, 0, 0, 0], 0⟩
    32 ≤ m.width ∧ c.data.length < m.size ∧ c.Placed ∧
      length? m .text c = .ok (some (wrappingCount - 1)) ⟨c.data, 4⟩ ∧
      Agree 32 c (fun _ => True) (optionalText m c) (Reader.optionalText (c.reader 32)) ∧
      optionalText m c = .error (.malformed (.truncated .text 0xFFFFFFFC 4 4)) ⟨c.data, 4⟩ := by
  intro m c
  have wide : 32 ≤ m.width := by decide
  have short : c.data.length < m.size := by decide
  have placed : c.Placed := ⟨by decide, by decide⟩
  have counted : length? m .text c = .ok (some (wrappingCount - 1)) ⟨c.data, 4⟩ := by rfl
  have sound := text_within_unless_wrapped wide short placed counted
  rw [if_neg (by decide)] at sound
  obtain ⟨same, -⟩ := sound
  have cut : textBytes m (wrappingCount - 1) ⟨c.data, 4⟩ =
      .error (.malformed (.truncated .text 0xFFFFFFFC 4 4)) ⟨c.data, 4⟩ := by
    have sized : Reader.textSize? 32 (wrappingCount - 1) = some 0xFFFFFFFC := by decide
    rw [textBytes_of_some sized (by decide)]
    exact bind_of_error (take_of_not_le .text (by decide) (by decide))
  refine ⟨wide, short, placed, counted, same, ?_⟩
  rw [optionalText_of_length? counted]
  exact bind_of_error cut

/-- Four bytes whose text is neither malformed nor within what is taken for it. -/
theorem text_wraps :
    let m : Machine := ⟨32, true⟩
    let data : Bytes := [254, 255, 255, 127]
    data.length < 1 <<< 31 ∧ wrappingCount < 1 <<< 31 ∧
      length? m .text ⟨data, 0⟩ = .ok (some wrappingCount) ⟨data, 4⟩ ∧
      roundUp m ((wrappingCount + 1) * 2) = pure 0 ∧
      textBytes m wrappingCount ⟨data, 4⟩ = .ok ((wrappingCount + 1) * 2, []) ⟨data, 4⟩ ∧
      optionalText m ⟨data, 0⟩ = .error (.outside ((wrappingCount + 1) * 2) 0) ⟨data, 4⟩ ∧
      Reader.optionalText ⟨32, 0, data⟩ = .error (.overrun wrappingCount 0) ⟨32, 4, []⟩ := by
  intro m data
  have counted : length? m .text ⟨data, 0⟩ = .ok (some wrappingCount) ⟨data, 4⟩ := by rfl
  have rounded : roundUp m ((wrappingCount + 1) * 2) = pure 0 := roundUp_wrapped true
  have wrapped : textBytes m wrappingCount ⟨data, 4⟩ =
      .ok ((wrappingCount + 1) * 2, []) ⟨data, 4⟩ :=
    textBytes_wrapped rfl (c := ⟨data, 4⟩) (by decide) ⟨by decide, by decide⟩
  refine ⟨by decide, by decide, counted, rounded, wrapped, ?_,
    optionalText_wrapped rfl rfl (by decide)⟩
  rw [optionalText_of_length? counted, bind_of_ok wrapped]
  exact bind_of_error (textWithin_of_nil _ _)

end Guarded

end StorageBus.Parcel
