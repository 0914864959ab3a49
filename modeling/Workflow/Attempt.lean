/-!
# Attempts

An attempt works on a state and gives a result or an error. What it has done to the state stays done
even when it fails.
-/
namespace Workflow

/-- Something that may fail and changes a state even then. -/
abbrev Attempt (σ ε α : Type) := ExceptT ε (StateM σ) α

namespace Attempt

/-- Changes a state, or fails and leaves it as it is. -/
def alter (f : σ → Except ε (α × σ)) : Attempt σ ε α := fun s =>
  match f s with
  | .ok (a, s) => (.ok a, s)
  | .error e => (.error e, s)

def look (f : σ → Except ε α) : Attempt σ ε α := fun s => (f s, s)

def mapError (f : ε → δ) (a : Attempt σ ε α) : Attempt σ δ α := fun s =>
  let (r, s) := a s
  (r.mapError f, s)

/-- Runs an attempt; of a failure it tells only that there was one. -/
def tolerate (a : Attempt σ ε α) : StateM σ (Option α) := fun s =>
  match a s with
  | (.ok v, s) => (some v, s)
  | (.error _, s) => (none, s)

end Attempt

/-- A part of a larger state. -/
structure Part (τ σ : Type) where
  get : τ → σ
  set : σ → τ → τ

namespace Part

def whole : Part σ σ := ⟨id, fun s _ => s⟩

def run (p : Part τ σ) (a : StateM σ α) : StateM τ α := fun t =>
  let (r, s) := a (p.get t)
  (r, p.set s t)

/-- What is attempted on a part is attempted on the whole. -/
def lift (p : Part τ σ) (a : Attempt σ ε α) : Attempt τ ε α :=
  ExceptT.mk (p.run a.run)

end Part
end Workflow
