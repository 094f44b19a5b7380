/-!
# Parts of a state

Where a value lives within a larger one, so that what is written for the part can be used on the
whole.
-/
namespace StorageBus

/-- A place for an `α` in every `τ`. -/
structure Part (τ α : Type) where
  get : τ → α
  set : α → τ → τ

namespace Part

variable {τ α β : Type}

/-- The whole as a part of itself. -/
def whole (τ : Type) : Part τ τ := ⟨id, fun v _ => v⟩

/-- A part of a part. -/
def comp (outer : Part τ α) (inner : Part α β) : Part τ β :=
  ⟨fun s => inner.get (outer.get s), fun v s => outer.set (inner.set v (outer.get s)) s⟩

/-- The step on the part as a step on the whole. -/
def lift (p : Part τ α) (step : α → β × α) (s : τ) : β × τ :=
  let (result, v) := step (p.get s)
  (result, p.set v s)

def modify (p : Part τ α) (f : α → α) (s : τ) : τ := p.set (f (p.get s)) s

end Part

end StorageBus
