import StorageBus.Proofs.SocketPath.Place

/-!
# Sockets of distinct services

Two services have sockets at one path only if a name was shortened: both names to the same short
one, which takes two paths with one hash, or one name to just what the other is.

## Main results

* `Place.shortName_eq_iff` — when two names are shortened to the same.
* `Place.ofService_eq_iff` — paths are told apart by the names that the sockets have.
* `Place.same_socket_iff` — when two services have sockets at one path.
-/
namespace StorageBus.SocketPath.Place

variable {p : Place} {a b : String}

theorem digits_eq_iff :
    p.digits a = p.digits b ↔ Fnv1a.hash (p.full a) = Fnv1a.hash (p.full b) := by
  rw [digits, digits, Text.Hex.fixed_inj (UInt64.toNat_lt _) (UInt64.toNat_lt _), UInt64.toNat_inj]

/-- The sixteen digits at the end are told apart first, whatever the lengths of the starts. -/
theorem shortName_eq_iff :
    p.shortName a = p.shortName b ↔
      asciiStart p.room a = asciiStart p.room b ∧
        Fnv1a.hash (p.full a) = Fnv1a.hash (p.full b) := by
  rw [← digits_eq_iff]
  constructor
  · intro same
    have chars := congrArg String.toList same
    simp only [shortName, String.toList_append, String.toList_ofList] at chars
    have lengths : (p.digits a).length = (p.digits b).length := by
      rw [digits, digits, Text.Hex.length_fixed, Text.Hex.length_fixed]
    obtain ⟨starts, digits⟩ := List.append_inj' chars lengths
    exact ⟨String.toList_inj.mp (List.append_cancel_right starts), digits⟩
  · rintro ⟨starts, digits⟩
    rw [shortName, shortName, starts, digits]

/-- Directory and ending are the same for all names that do not replace the directory. -/
theorem ofService_eq_iff (relative : Relative a) (relative' : Relative b) :
    p.ofService a = p.ofService b ↔ p.called a = p.called b := by
  rw [ofService_of_relative relative, ofService_of_relative relative', List.append_cancel_left_eq,
    utf8_inj, String.append_left_inj]

theorem called_eq_iff (distinct : a ≠ b) :
    p.called a = p.called b ↔
      (¬ p.Fits a ∧ ¬ p.Fits b ∧ asciiStart p.room a = asciiStart p.room b ∧
        Fnv1a.hash (p.full a) = Fnv1a.hash (p.full b)) ∨
      (¬ p.Fits a ∧ p.Fits b ∧ b = p.shortName a) ∨
      (p.Fits a ∧ ¬ p.Fits b ∧ a = p.shortName b) := by
  by_cases kept : p.Fits a <;> by_cases kept' : p.Fits b
  · simp [called, kept, kept', distinct]
  · simp [called, kept, kept']
  · simp [called, kept, kept', eq_comm]
  · simp [called, kept, kept', shortName_eq_iff]

/-- In every place the sockets of two services, under distinct names that do not replace the
directory, have one path just if both names are shortened, with the same ASCII start and paths of
the same hash, or one is kept and is what the other is shortened to. Names that are both kept never
have. A short name is an ASCII start of the name, an underscore and the hash of the path that the
name would lead to, in sixteen digits. -/
theorem same_socket_iff (p : Place) {a b : String} (relative : ¬ a.startsWith "/")
    (relative' : ¬ b.startsWith "/") (distinct : a ≠ b) :
    (p.ofService a = p.ofService b ↔
      (¬ p.Fits a ∧ ¬ p.Fits b ∧ asciiStart p.room a = asciiStart p.room b ∧
        Fnv1a.hash (p.full a) = Fnv1a.hash (p.full b)) ∨
      (¬ p.Fits a ∧ p.Fits b ∧ b = p.shortName a) ∨
      (p.Fits a ∧ ¬ p.Fits b ∧ a = p.shortName b)) ∧
    (p.Fits a → p.Fits b → p.ofService a ≠ p.ofService b) ∧
    (∀ name, ∃ start digits : List Char, (p.shortName name).toList = start ++ '_' :: digits ∧
      start <+: name.toList ∧ (∀ ch ∈ start, ch.toNat < 128) ∧
      digits.length = 16 ∧ (∀ ch ∈ digits, Text.HexCase.lower.Spells ch) ∧
      Text.Hex.value digits = (Fnv1a.hash (p.full name)).toNat) ∧
    ∀ dir, p = ofText dir →
      (SocketPath.ofService dir a = SocketPath.ofService dir b ↔
        p.ofService a = p.ofService b) := by
  have same := (ofService_eq_iff (p := p) relative relative').trans (called_eq_iff distinct)
  refine ⟨same, ?_, ?_, ?_⟩
  · intro kept kept' one
    rcases same.mp one with ⟨long, -⟩ | ⟨long, -⟩ | ⟨-, long, -⟩
    · exact long kept
    · exact long kept
    · exact long kept'
  · intro name
    obtain ⟨start, digits, form, begins, -, rest⟩ := p.shortName_form name
    exact ⟨start, digits, form, begins, rest⟩
  · rintro dir rfl
    rw [← utf8_ofService, ← utf8_ofService, utf8_inj]

/-- A name cut at its second character, and the name that it is cut down to. -/
theorem same_socket_iff_cut :
    let p := ofText "/tmp"
    let a := String.ofList ('a' :: List.replicate 60 'é')
    let b := "a_176519f7003ec3fb"
    ¬ a.startsWith "/" ∧ ¬ b.startsWith "/" ∧ a ≠ b ∧ ¬ p.Fits a ∧ p.Fits b ∧ b = p.shortName a ∧
      SocketPath.ofService "/tmp" a = SocketPath.ofService "/tmp" b := by
  intro p a b
  have relative : ¬ a.startsWith "/" := by decide +kernel
  have relative' : ¬ b.startsWith "/" := by decide +kernel
  have distinct : a ≠ b := by decide +kernel
  have long : ¬ p.Fits a := by decide +kernel
  have kept : p.Fits b := by decide +kernel
  have short : b = p.shortName a := by decide +kernel
  obtain ⟨same, -, -, texts⟩ := same_socket_iff p relative relative' distinct
  exact ⟨relative, relative', distinct, long, kept, short,
    (texts "/tmp" rfl).mpr (same.mpr (.inr (.inl ⟨long, kept, short⟩)))⟩

end StorageBus.SocketPath.Place
