/-!
# Tables

Values under keys, in the order in which the keys came. Of two entries with one key the first
counts.

## Main definitions

* `Table.find?`, `Table.add`, `Table.update`, `Table.drop`.
-/
namespace StorageBus

abbrev Table (κ α : Type) := List (κ × α)

namespace Table

variable {κ α : Type} [DecidableEq κ]

def find? (k : κ) : Table κ α → Option α
  | [] => none
  | (key, v) :: t => if key = k then some v else find? k t

/-- The table with a last entry more. -/
def add (k : κ) (v : α) (t : Table κ α) : Table κ α := t ++ [(k, v)]

/-- The table with the value under the key changed, if there is one. -/
def update (k : κ) (f : α → α) : Table κ α → Table κ α
  | [] => []
  | (key, v) :: t => if key = k then (key, f v) :: t else (key, v) :: update k f t

/-- The table with this value under the key, at the place the key has or else at the end. -/
def put (k : κ) (v : α) (t : Table κ α) : Table κ α :=
  if (find? k t).isSome then update k (fun _ => v) t else add k v t

/-- The table without any value under the key. -/
def drop (k : κ) (t : Table κ α) : Table κ α := t.filter (·.1 ≠ k)

def keys (t : Table κ α) : List κ := t.map (·.1)

@[simp] theorem find?_nil (k : κ) : find? k ([] : Table κ α) = none := rfl

theorem find?_cons (k : κ) (e : κ × α) (t : Table κ α) :
    find? k (e :: t) = if e.1 = k then some e.2 else find? k t := rfl

theorem update_cons (k : κ) (f : α → α) (e : κ × α) (t : Table κ α) :
    update k f (e :: t) = if e.1 = k then (e.1, f e.2) :: t else e :: update k f t := rfl

@[simp] theorem find?_update_self (k : κ) (f : α → α) (t : Table κ α) :
    find? k (update k f t) = (find? k t).map f := by
  induction t with
  | nil => rfl
  | cons e t ih => grind [find?_cons, update_cons]

theorem find?_update_of_ne {k l : κ} (h : l ≠ k) (f : α → α) (t : Table κ α) :
    find? l (update k f t) = find? l t := by
  induction t with
  | nil => rfl
  | cons e t ih => grind [find?_cons, update_cons]

theorem update_eq_self {k : κ} {f : α → α} {v : α} {t : Table κ α} (h : find? k t = some v)
    (fixed : f v = v) : update k f t = t := by
  induction t with
  | nil => rfl
  | cons e t ih => grind [find?_cons, update_cons]

theorem update_congr {k : κ} {f g : α → α} {v : α} {t : Table κ α} (h : find? k t = some v)
    (same : f v = g v) : update k f t = update k g t := by
  induction t with
  | nil => rfl
  | cons e t ih => grind [find?_cons, update_cons]

@[simp] theorem update_update (k : κ) (f g : α → α) (t : Table κ α) :
    update k f (update k g t) = update k (fun v => f (g v)) t := by
  induction t with
  | nil => rfl
  | cons e t ih => grind [update_cons]

@[simp] theorem keys_update (k : κ) (f : α → α) (t : Table κ α) : keys (update k f t) = keys t := by
  induction t with
  | nil => rfl
  | cons e t ih => grind [update_cons, keys]

theorem find?_add (k l : κ) (v : α) (t : Table κ α) :
    find? l (add k v t) = (find? l t).or (if k = l then some v else none) := by
  induction t with
  | nil => rfl
  | cons e t ih => grind [add, find?_cons]

theorem isSome_find?_iff {k : κ} {t : Table κ α} : (find? k t).isSome ↔ k ∈ keys t := by
  induction t with
  | nil => simp [keys]
  | cons e t ih => grind [find?_cons, keys]

@[simp] theorem find?_drop_self (k : κ) (t : Table κ α) : find? k (drop k t) = none := by
  induction t with
  | nil => rfl
  | cons e t ih => grind [drop, find?_cons]

theorem find?_drop_of_ne {k l : κ} (h : l ≠ k) (t : Table κ α) :
    find? l (drop k t) = find? l t := by
  induction t with
  | nil => rfl
  | cons e t ih => grind [drop, find?_cons]

end Table

end StorageBus
