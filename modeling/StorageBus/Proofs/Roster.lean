import Mathlib.Data.List.Nodup
import StorageBus.Roster.Basic

/-!
# Rosters as lists

Of a roster only its entries matter: registering puts an entry behind them, and unregistering takes
one out of them. The slots behind the entries are never seen to move.

## Main definitions

* `Roster.WellFormed` — what holds of every roster that comes about by registering and
  unregistering.

## Main results

* `Roster.WellFormed.register`, `Roster.entries_register` — a new entry comes last.
* `Roster.WellFormed.removeAt`, `Roster.entries_removeAt` — one entry is taken out.
* `Roster.entries_unregister` — the entry under a handle is taken out.
-/
namespace StorageBus.Roster

variable {L : Type} {r : Roster L}

/-- The order names every occupied slot once and no other, and no two entries share a handle. -/
structure WellFormed (r : Roster L) : Prop where
  order_nodup : r.order.Nodup
  occupied : ∀ slot, (r.entryAt? slot).isSome ↔ slot ∈ r.order
  handles_nodup : r.handles.Nodup

theorem WellFormed.empty : WellFormed ({} : Roster L) where
  order_nodup := List.nodup_nil
  occupied := by simp [entryAt?]
  handles_nodup := List.nodup_nil

/-- The handle tells an entry. -/
theorem WellFormed.eq_of_handle (wf : r.WellFormed) {x y : Entry L} (mem : y ∈ r.entries)
    (mem' : x ∈ r.entries) (same : y.handle = x.handle) : y = x :=
  List.inj_on_of_nodup_map wf.handles_nodup mem mem' same

/-! ## Looking up -/

theorem mem_handles {h : Handle} :
    h ∈ r.handles ↔ ∃ slot ∈ r.order, ∃ e, r.entryAt? slot = some e ∧ e.handle = h := by
  simp only [handles, entries, List.mem_map, List.mem_filterMap]
  constructor
  · rintro ⟨e, ⟨slot, mem, found⟩, rfl⟩
    exact ⟨slot, mem, e, found, rfl⟩
  · rintro ⟨slot, mem, e, found, rfl⟩
    exact ⟨e, ⟨slot, mem, found⟩, rfl⟩

theorem holds_iff {h : Handle} {slot : Nat} :
    r.holds h slot = true ↔ ∃ e, r.entryAt? slot = some e ∧ e.handle = h := by
  cases found : r.entryAt? slot <;> simp [holds, found]

theorem contains_iff {h : Handle} : r.contains h = true ↔ h ∈ r.handles := by
  simp only [contains, position?, List.findIdx?_isSome, List.any_eq_true, holds_iff, mem_handles]

/-! ## Registering -/

/-- Among more numbers than there are slots one is vacant. -/
theorem entryAt?_vacant (r : Roster L) : r.entryAt? r.vacant = none := by
  unfold vacant
  cases found : (List.range r.slots.length).find? fun slot => (r.entryAt? slot).isNone with
  | some slot => simpa using List.find?_some found
  | none =>
    rw [Option.getD_none]
    by_cases vacant : (r.entryAt? r.slots.length).isSome
    · have all : List.range (r.slots.length + 1) ⊆ Table.keys r.slots := by
        intro slot mem
        have le : slot ≤ r.slots.length := Nat.le_of_lt_succ (List.mem_range.mp mem)
        apply Table.isSome_find?_iff.mp
        rcases Nat.lt_or_eq_of_le le with lt | rfl
        · have taken := List.find?_eq_none.mp found slot (List.mem_range.mpr lt)
          simpa [entryAt?, Option.isNone_iff_eq_none, Option.isSome_iff_ne_none] using taken
        · exact vacant
      have le := List.nodup_range.length_le_of_subset all
      rw [List.length_range, Table.keys, List.length_map] at le
      omega
    · simpa using vacant

/-- What a roster is once a vacant slot was taken. -/
theorem entryAt?_registerAt {slot : Nat} {h : Handle} (new : h ∉ r.handles) (l : L) (s : Nat) :
    ((r.registerAt slot h l).2.entryAt? s) = if s = slot then some ⟨h, l⟩ else r.entryAt? s := by
  rw [registerAt, if_neg (by rwa [contains_iff])]
  simp only [entryAt?, Table.find?_cons, eq_comm]

theorem entries_registerAt {slot : Nat} {h : Handle} (wf : r.WellFormed) (new : h ∉ r.handles)
    (vacant : r.entryAt? slot = none) (l : L) :
    (r.registerAt slot h l).2.entries = r.entries ++ [⟨h, l⟩] := by
  have order : (r.registerAt slot h l).2.order = r.order ++ [slot] := by
    rw [registerAt, if_neg (by rwa [contains_iff])]
  have unused : slot ∉ r.order := by
    rw [← wf.occupied, vacant]
    simp
  have same : r.order.filterMap (r.registerAt slot h l).2.entryAt? =
      r.order.filterMap r.entryAt? := by
    apply List.filterMap_congr
    intro s mem
    have other : s ≠ slot := by
      rintro rfl
      exact unused mem
    rw [entryAt?_registerAt new, if_neg other]
  rw [entries, order, List.filterMap_append, same, entries]
  simp [entryAt?_registerAt new]

theorem register_of_mem {h : Handle} (known : h ∈ r.handles) (l : L) :
    r.register h l = (false, r) := by
  rw [register, registerAt, if_pos (contains_iff.mpr known)]

theorem register_of_not_mem {h : Handle} (new : h ∉ r.handles) (l : L) :
    (r.register h l).1 = true := by
  rw [register, registerAt, if_neg (by rwa [contains_iff])]

theorem entries_register {h : Handle} (wf : r.WellFormed) (new : h ∉ r.handles) (l : L) :
    (r.register h l).2.entries = r.entries ++ [⟨h, l⟩] :=
  entries_registerAt wf new r.entryAt?_vacant l

theorem WellFormed.registerAt (wf : r.WellFormed) {slot : Nat} {h : Handle}
    (vacant : h ∉ r.handles → r.entryAt? slot = none) (l : L) :
    (r.registerAt slot h l).2.WellFormed := by
  by_cases known : h ∈ r.handles
  · rw [Roster.registerAt, if_pos (contains_iff.mpr known)]
    exact wf
  · have order : (r.registerAt slot h l).2.order = r.order ++ [slot] := by
      rw [Roster.registerAt, if_neg (by rwa [contains_iff])]
    have unused : slot ∉ r.order := by
      rw [← wf.occupied, vacant known]
      simp
    refine ⟨?_, ?_, ?_⟩
    · rw [order, List.nodup_append]
      refine ⟨wf.order_nodup, List.nodup_singleton _, ?_⟩
      rintro a mem b other rfl
      rw [List.mem_singleton.mp other] at mem
      exact unused mem
    · intro s
      rw [entryAt?_registerAt known, order, List.mem_append, List.mem_singleton, ← wf.occupied]
      split <;> simp_all
    · rw [handles, entries_registerAt wf known (vacant known), List.map_append, List.nodup_append]
      refine ⟨wf.handles_nodup, List.nodup_singleton _, ?_⟩
      rintro a mem b other rfl
      rw [List.map_singleton, List.mem_singleton] at other
      subst other
      exact known mem

theorem WellFormed.register (wf : r.WellFormed) (h : Handle) (l : L) :
    (r.register h l).2.WellFormed :=
  wf.registerAt (fun _ => r.entryAt?_vacant) l

/-! ## Removing -/

theorem entryAt?_removeAt {position slot : Nat} (at' : r.order[position]? = some slot) (s : Nat) :
    (r.removeAt position).entryAt? s = if s = slot then none else r.entryAt? s := by
  simp only [removeAt, at', entryAt?]
  split
  · next same =>
    subst same
    exact Table.find?_drop_self _ _
  · next other => exact Table.find?_drop_of_ne other _

/-- The order around a place in it. -/
theorem WellFormed.order_split (wf : r.WellFormed) {position slot : Nat}
    (at' : r.order[position]? = some slot) :
    ∃ before after, r.order = before ++ slot :: after ∧ before.length = position ∧
      (r.removeAt position).order = before ++ after ∧ slot ∉ before ++ after := by
  obtain ⟨lt, eq⟩ := List.getElem?_eq_some_iff.mp at'
  have split : r.order = r.order.take position ++ slot :: r.order.drop (position + 1) := by
    rw [← eq, ← List.drop_eq_getElem_cons lt, List.take_append_drop]
  refine ⟨_, _, split, List.length_take_of_le (Nat.le_of_lt lt), ?_, ?_⟩
  · simp only [removeAt, at', List.eraseIdx_eq_take_drop_succ]
  · have nodup := wf.order_nodup
    rw [split, List.nodup_middle, List.nodup_cons] at nodup
    exact nodup.1

/-- The entries around the one at a place in the order, and what is left without it. -/
theorem WellFormed.entries_split (wf : r.WellFormed) {position slot : Nat}
    (at' : r.order[position]? = some slot) :
    ∃ before e after, r.entryAt? slot = some e ∧ r.entries = before ++ e :: after ∧
      before.length = position ∧ (r.removeAt position).entries = before ++ after := by
  obtain ⟨before, after, split, length, order, unused⟩ := wf.order_split at'
  have occupied : (r.entryAt? slot).isSome := by
    rw [wf.occupied, split]
    simp
  obtain ⟨e, found⟩ := Option.isSome_iff_exists.mp occupied
  refine ⟨before.filterMap r.entryAt?, e, after.filterMap r.entryAt?, found, ?_, ?_, ?_⟩
  · rw [entries, split, List.filterMap_append, List.filterMap_cons, found]
  · rw [← length, List.filterMap_length_eq_length]
    intro s mem
    rw [wf.occupied, split]
    exact List.mem_append_left _ mem
  · rw [entries, order, ← List.filterMap_append]
    apply List.filterMap_congr
    intro s mem
    have other : s ≠ slot := by
      rintro rfl
      exact unused mem
    rw [entryAt?_removeAt at', if_neg other]

theorem WellFormed.removeAt (wf : r.WellFormed) (position : Nat) :
    (r.removeAt position).WellFormed := by
  cases at' : r.order[position]? with
  | none =>
    simp only [Roster.removeAt, at']
    exact wf
  | some slot =>
    obtain ⟨before, after, split, -, order, unused⟩ := wf.order_split at'
    obtain ⟨front, e, back, -, entries, -, left⟩ := wf.entries_split at'
    have nodup := wf.order_nodup
    have distinct := wf.handles_nodup
    rw [split, List.nodup_middle, List.nodup_cons] at nodup
    rw [handles, entries, List.map_append, List.map_cons, List.nodup_middle,
      List.nodup_cons] at distinct
    refine ⟨by rw [order]; exact nodup.2, fun s => ?_, ?_⟩
    · have occupied := wf.occupied s
      rw [split] at occupied
      rw [entryAt?_removeAt at', order]
      split
      · next same => simpa [same] using unused
      · next other => simpa [other] using occupied
    · rw [handles, left, List.map_append]
      exact distinct.2

theorem unregister_of_not_mem {h : Handle} (unknown : h ∉ r.handles) :
    r.unregister h = (false, r) := by
  have none : r.position? h = none := by
    rw [← contains_iff, contains] at unknown
    simpa using unknown
  rw [unregister, none]

/-- Where a registered handle is. -/
theorem exists_position {h : Handle} (known : h ∈ r.handles) :
    ∃ position slot, r.position? h = some position ∧ r.order[position]? = some slot ∧
      r.holds h slot = true := by
  rw [← contains_iff, contains] at known
  obtain ⟨position, found⟩ := Option.isSome_iff_exists.mp known
  obtain ⟨lt, holds, -⟩ := List.findIdx?_eq_some_iff_getElem.mp found
  exact ⟨position, _, found, List.getElem?_eq_getElem lt, holds⟩

theorem unregister_of_mem {h : Handle} (known : h ∈ r.handles) : (r.unregister h).1 = true := by
  obtain ⟨position, slot, found, -⟩ := exists_position known
  rw [unregister, found]

theorem unregister_iff {h : Handle} : (r.unregister h).1 = true ↔ h ∈ r.handles := by
  constructor
  · intro known
    by_contra unknown
    rw [unregister_of_not_mem unknown] at known
    cases known
  · exact unregister_of_mem

theorem filter_entries_of_not_mem {h : Handle} (unknown : h ∉ r.handles) :
    r.entries.filter (·.handle ≠ h) = r.entries := by
  apply List.filter_eq_self.mpr
  intro e mem
  rw [decide_eq_true_iff]
  rintro rfl
  exact unknown (List.mem_map_of_mem mem)

theorem entries_unregister (wf : r.WellFormed) (h : Handle) :
    (r.unregister h).2.entries = r.entries.filter (·.handle ≠ h) := by
  by_cases known : h ∈ r.handles
  · obtain ⟨position, slot, found, at', holds⟩ := exists_position known
    obtain ⟨before, e, after, entry, entries, -, left⟩ := wf.entries_split at'
    obtain ⟨e', entry', rfl⟩ := holds_iff.mp holds
    cases entry.symm.trans entry'
    have distinct := wf.handles_nodup
    rw [handles, entries, List.map_append, List.map_cons, List.nodup_middle,
      List.nodup_cons, ← List.map_append] at distinct
    have kept : ∀ x ∈ before ++ after, decide (x.handle ≠ e.handle) = true := by
      intro x mem
      rw [decide_eq_true_iff]
      exact fun same => distinct.1 (same ▸ List.mem_map_of_mem mem)
    rw [unregister, found]
    simp only
    rw [left, entries, List.filter_append, List.filter_cons, if_neg (by simp),
      ← List.filter_append, List.filter_eq_self.mpr kept]
  · rw [unregister_of_not_mem known, filter_entries_of_not_mem known]

theorem handles_unregister (wf : r.WellFormed) (h : Handle) :
    (r.unregister h).2.handles = r.handles.filter (· ≠ h) := by
  rw [handles, handles, entries_unregister wf, List.filter_map]
  rfl

theorem WellFormed.unregister (wf : r.WellFormed) (h : Handle) :
    (r.unregister h).2.WellFormed := by
  unfold Roster.unregister
  split
  · exact wf
  · exact wf.removeAt _

end StorageBus.Roster
