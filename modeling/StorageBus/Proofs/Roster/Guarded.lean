import StorageBus.Proofs.Roster

/-!
# Rosters that look before they touch a slot

The order of a roster names slots, and every look at an entry goes through one of them. Here each
such look fails if the slot is vacant. On a roster that is well-formed none of them does, also not
in the middle of a sweep, where entries go away while the order is gone through.

## Main definitions

* `Guarded.position`, `Guarded.entries`, `Guarded.unregister`, `Guarded.sweepFrom` — what is done
  with a roster, or nothing at the first look into a vacant slot.

## Main results

* `Guarded.position_eq`, `Guarded.entries_eq`, `Guarded.unregister_eq`, `Guarded.sweep_eq` — on a
  well-formed roster no look fails.
* `WellFormed.sweep`, `entries_sweep`, `count_sweep` — what a sweep leaves, and what it counts.
-/
namespace StorageBus.Roster

variable {L : Type} {r : Roster L}

/-! ## Sweeping -/

theorem WellFormed.exists_entry (wf : r.WellFormed) {slot : Nat} (named : slot ∈ r.order) :
    ∃ e, r.entryAt? slot = some e :=
  Option.isSome_iff_exists.mp ((wf.occupied slot).mpr named)

theorem WellFormed.length_entries (wf : r.WellFormed) : r.entries.length = r.order.length := by
  apply List.filterMap_length_eq_length.mpr
  intro slot named
  exact (wf.occupied slot).mpr named

/-- What is left behind a place in the order, and how much goes away there. -/
theorem WellFormed.sweepFrom_spec (wf : r.WellFormed) (live : Handle → Bool)
    (position removed : Nat) :
    (r.sweepFrom live position removed).2.WellFormed ∧
      (r.sweepFrom live position removed).2.entries =
        r.entries.take position ++ (r.entries.drop position).filter (live ·.handle) ∧
      (r.sweepFrom live position removed).1 =
        removed + (r.entries.drop position).countP (!live ·.handle) := by
  fun_induction sweepFrom live position removed r with
  | case1 position removed r past =>
    have short : r.entries.length ≤ position := by
      rw [wf.length_entries]
      exact List.getElem?_eq_none_iff.mp past
    simp [wf, List.take_of_length_le short, List.drop_of_length_le short]
  | case2 position removed r slot at' lives ih =>
    obtain ⟨before, e, after, found, entries, rfl, -⟩ := wf.entries_split at'
    have alive : live e.handle = true := by simpa [found] using lives
    obtain ⟨wf', left, count⟩ := ih wf
    have passed : r.entries.take (before.length + 1) = before ++ [e] := by
      simp [entries, List.take_length_add_append]
    have ahead : r.entries.drop (before.length + 1) = after := by
      simp [entries, List.drop_length_add_append]
    refine ⟨wf', ?_, ?_⟩
    · rw [left, passed, ahead, entries]
      simp [alive]
    · rw [count, ahead, entries]
      simp [alive]
  | case3 position removed r slot at' lives ih =>
    obtain ⟨before, e, after, found, entries, rfl, without⟩ := wf.entries_split at'
    have gone : live e.handle = false := by simpa [found] using lives
    obtain ⟨wf', left, count⟩ := ih (wf.removeAt _)
    refine ⟨wf', ?_, ?_⟩
    · rw [left, without, entries]
      simp [gone]
    · rw [count, without, entries]
      simp [gone]
      omega

theorem WellFormed.sweep (wf : r.WellFormed) (live : Handle → Bool) :
    (r.sweep live).2.WellFormed := (wf.sweepFrom_spec live 0 0).1

theorem entries_sweep (wf : r.WellFormed) (live : Handle → Bool) :
    (r.sweep live).2.entries = r.entries.filter (live ·.handle) := by
  simpa [Roster.sweep] using (wf.sweepFrom_spec live 0 0).2.1

theorem count_sweep (wf : r.WellFormed) (live : Handle → Bool) :
    (r.sweep live).1 = r.entries.countP (!live ·.handle) := by
  simpa [Roster.sweep] using (wf.sweepFrom_spec live 0 0).2.2

/-! ## Guarded looks -/

namespace Guarded

/-- Where among these slots the handle comes first. -/
def position (r : Roster L) (h : Handle) : List Nat → Option (Option Nat)
  | [] => some none
  | slot :: slots => do
    let e ← r.entryAt? slot
    if e.handle = h then return some 0
    return (← position r h slots).map (· + 1)

/-- The entries in order. -/
def entries (r : Roster L) : Option (List (Entry L)) := r.order.mapM r.entryAt?

/-- Registers in the given slot, unless the handle is registered. -/
def registerAt (slot : Nat) (h : Handle) (l : L) (r : Roster L) : Option (Bool × Roster L) := do
  match ← position r h r.order with
  | some _ => return (false, r)
  | none => return (true, { slots := (slot, ⟨h, l⟩) :: r.slots, order := r.order ++ [slot] })

/-- Frees the slot at a place in the order, which has to be occupied. -/
def removeAt (place : Nat) (r : Roster L) : Option (Roster L) := do
  let slot ← r.order[place]?
  let _ ← r.entryAt? slot
  return { slots := Table.drop slot r.slots, order := r.order.eraseIdx place }

def unregister (h : Handle) (r : Roster L) : Option (Bool × Roster L) := do
  match ← position r h r.order with
  | none => return (false, r)
  | some place => return (true, ← removeAt place r)

theorem length_of_removeAt {place : Nat} {r s : Roster L} (h : removeAt place r = some s) :
    s.order.length + 1 = r.order.length := by
  simp only [removeAt, Option.bind_eq_bind, Option.bind_eq_some_iff] at h
  obtain ⟨slot, at', e, -, eq⟩ := h
  cases eq
  have lt := (List.getElem?_eq_some_iff.mp at').1
  simp only [List.length_eraseIdx_of_lt lt]
  omega

/-- Goes through the order from a place on and removes what is not live. -/
def sweepFrom (live : Handle → Bool) (place removed : Nat) (r : Roster L) :
    Option (Nat × Roster L) :=
  match _h : r.order[place]? with
  | none => some (removed, r)
  | some slot =>
    match r.entryAt? slot with
    | none => none
    | some e =>
      if live e.handle then sweepFrom live (place + 1) removed r
      else
        match _k : removeAt place r with
        | none => none
        | some s => sweepFrom live place (removed + 1) s
termination_by r.order.length - place
decreasing_by
  · have := (List.getElem?_eq_some_iff.mp _h).1
    omega
  · have := (List.getElem?_eq_some_iff.mp _h).1
    have := length_of_removeAt _k
    omega

/-! ### No look fails -/

theorem position_eq (wf : r.WellFormed) (h : Handle) :
    position r h r.order = some (r.position? h) := by
  have among : ∀ slots ⊆ r.order, position r h slots = some (slots.findIdx? (r.holds h)) := by
    intro slots
    induction slots with
    | nil => intro _; rfl
    | cons slot slots ih =>
      intro named
      obtain ⟨e, found⟩ := wf.exists_entry (named List.mem_cons_self)
      have rest := ih fun s mem => named (List.mem_cons_of_mem _ mem)
      by_cases this : e.handle = h
      · simp [position, found, this, holds, List.findIdx?_cons]
      · simp [position, found, this, holds, rest, List.findIdx?_cons]
  exact among r.order fun _ mem => mem

theorem entries_eq (wf : r.WellFormed) : entries r = some r.entries := by
  have among : ∀ slots ⊆ r.order,
      slots.mapM r.entryAt? = some (slots.filterMap r.entryAt?) := by
    intro slots
    induction slots with
    | nil => intro _; rfl
    | cons slot slots ih =>
      intro named
      obtain ⟨e, found⟩ := wf.exists_entry (named List.mem_cons_self)
      have rest := ih fun s mem => named (List.mem_cons_of_mem _ mem)
      simp [List.mapM_cons, found, rest]
  exact among r.order fun _ mem => mem

theorem registerAt_eq (wf : r.WellFormed) (slot : Nat) (h : Handle) (l : L) :
    registerAt slot h l r = some (r.registerAt slot h l) := by
  cases known : r.position? h <;>
    simp [registerAt, position_eq wf, known, Roster.registerAt, contains]

theorem removeAt_eq (wf : r.WellFormed) {place slot : Nat} (at' : r.order[place]? = some slot) :
    removeAt place r = some (r.removeAt place) := by
  obtain ⟨e, found⟩ := wf.exists_entry (List.mem_of_getElem? at')
  simp [removeAt, at', found, Roster.removeAt]

theorem unregister_eq (wf : r.WellFormed) (h : Handle) :
    unregister h r = some (r.unregister h) := by
  cases known : r.position? h with
  | none => simp [unregister, position_eq wf, known, Roster.unregister]
  | some place =>
    have lt : place < r.order.length := (List.findIdx?_eq_some_iff_getElem.mp known).1
    have removed := removeAt_eq wf (List.getElem?_eq_getElem lt)
    simp [unregister, position_eq wf, known, Roster.unregister, removed]

theorem sweepFrom_eq (wf : r.WellFormed) (live : Handle → Bool) (place removed : Nat) :
    sweepFrom live place removed r = some (r.sweepFrom live place removed) := by
  fun_induction Roster.sweepFrom live place removed r with
  | case1 place removed r past =>
    rw [sweepFrom]
    split
    · rfl
    · next slot at' => cases past.symm.trans at'
  | case2 place removed r slot at' lives ih =>
    obtain ⟨e, found⟩ := wf.exists_entry (List.mem_of_getElem? at')
    have alive : live e.handle = true := by simpa [found] using lives
    rw [sweepFrom]
    split
    · next past => cases at'.symm.trans past
    · next s at'' =>
      cases at'.symm.trans at''
      simp only [found, alive, if_true]
      exact ih wf
  | case3 place removed r slot at' lives ih =>
    obtain ⟨e, found⟩ := wf.exists_entry (List.mem_of_getElem? at')
    have gone : ¬ live e.handle = true := by simpa [found] using lives
    rw [sweepFrom]
    split
    · next past => cases at'.symm.trans past
    · next s at'' =>
      cases at'.symm.trans at''
      simp only [found, if_neg gone]
      split
      · next stuck => cases (removeAt_eq wf at').symm.trans stuck
      · next s freed =>
        cases (removeAt_eq wf at').symm.trans freed
        exact ih (wf.removeAt place)

end Guarded

end StorageBus.Roster
