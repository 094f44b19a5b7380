import StorageBus.Event.Basic
import StorageBus.Fault

/-!
# Listeners

A listener answers every event with success or a fault. While it does so it may act on the state
around it, and it may panic instead of answering; what it did before a panic stays done.

## Main definitions

* `Act` — actions on a state that may panic, and `Act.attempt`, which contains the panic.
* `Listener` — the answer to each event.
-/
namespace StorageBus

/-- A panic, with its message if what was raised is a text. -/
structure Panic where
  message : Option String := none
deriving DecidableEq, Repr

/-- What is said of a panic that was contained. -/
def Panic.describe (p : Panic) : String :=
  match p.message with
  | some message => s!"panicked: {message}"
  | none => "panicked"

/-- An action on a state that ends with a value or a panic. -/
abbrev Act (σ α : Type) := EStateM Panic σ α

/-- The end of the action, also if it is a panic, and the state it leaves. -/
def Act.attempt {σ α : Type} (act : Act σ α) (s : σ) : Except Panic α × σ :=
  match act s with
  | .ok v t => (.ok v, t)
  | .error p t => (.error p, t)

@[simp] theorem Act.attempt_pure {σ α : Type} (v : α) (s : σ) :
    Act.attempt (pure v : Act σ α) s = (.ok v, s) := rfl

@[simp] theorem Act.attempt_throw {σ α : Type} (p : Panic) (s : σ) :
    Act.attempt (throw p : Act σ α) s = (.error p, s) := rfl

theorem Act.modifyGet_apply {σ α : Type} (f : σ → α × σ) (s : σ) :
    (modifyGet f : Act σ α) s = .ok (f s).1 (f s).2 := rfl

theorem Act.bind_apply {σ α β : Type} {m : Act σ α} {s t : σ} {v : α} (ok : m s = .ok v t)
    (f : α → Act σ β) : (m >>= f) s = f v t := by
  simp only [bind, EStateM.bind, ok]

theorem Act.discard_apply {σ α : Type} {m : Act σ α} {s t : σ} {v : α} (ok : m s = .ok v t) :
    (discard m : Act σ PUnit) s = .ok () t := by
  simp only [discard, Functor.discard, Functor.mapConst, Function.comp_apply, EStateM.map, ok]

theorem Act.of_bind {σ α β : Type} {m : Act σ α} {f : α → Act σ β} {s u : σ} {b : β}
    (ok : (m >>= f) s = .ok b u) : ∃ a t, m s = .ok a t ∧ f a t = .ok b u := by
  cases first : m s with
  | ok a t =>
    rw [Act.bind_apply first] at ok
    exact ⟨a, t, rfl, ok⟩
  | error p t =>
    simp only [bind, EStateM.bind, first] at ok
    cases ok

abbrev Listener (σ : Type) := Event → Act σ (Except Fault Unit)

/-- The listener that accepts every event and does nothing. -/
def Listener.idle (σ : Type) : Listener σ := fun _ => return .ok ()

end StorageBus
