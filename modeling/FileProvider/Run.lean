/-!
# Steps and runs

A step is a function of a state that ends with a value or with a cause of failure. A run may also
reach its depth limit. That third ending is kept apart from the failures, so that no caller can take
a walk that was cut off for one that was refused.
-/

set_option autoImplicit false

namespace FileProvider

/-- An operation on a state of type `σ` that ends with a value or fails for a cause of type `ε`; a
failure keeps the state that it left behind. -/
abbrev Step (σ ε α : Type) : Type := EStateM ε σ α

namespace Step

variable {σ τ ε α : Type}

/-- A value or a cause of failure, neither touching the state. -/
def ofExcept (r : Except ε α) : Step σ ε α := fun s =>
  match r with
  | .ok a => .ok a s
  | .error e => .error e s

/-- Takes a step on a part of a larger state: `get` reads the part, `set` puts it back. -/
def zoom (get : τ → σ) (set : σ → τ → τ) (x : Step σ ε α) : Step τ ε α := fun t =>
  match x (get t) with
  | .ok a s' => .ok a (set s' t)
  | .error e s' => .error e (set s' t)

/-- How a step ends on a given state. -/
def outcome (x : Step σ ε α) (s : σ) : Except ε α × σ :=
  match x s with
  | .ok a s' => (.ok a, s')
  | .error e s' => (.error e, s')

end Step

/-- Why a run ended without a value. -/
inductive Stop (ε : Type) where
  /-- The operation was refused for the cause `e`. -/
  | failed (e : ε)
  /-- A recursive walk reached its depth limit before it was done. -/
  | exhausted
deriving DecidableEq, Repr

/-- A step that may also reach its depth limit. -/
abbrev Run (σ ε α : Type) : Type := EStateM (Stop ε) σ α

namespace Run

variable {σ τ ε δ α : Type}

/-- Fails for the cause `e`, leaving the state as it is. -/
def fail (e : ε) : Run σ ε α := fun s => .error (.failed e) s

/-- Ends because the depth limit is reached. -/
def exhausted : Run σ ε α := fun s => .error .exhausted s

/-- A step, seen as a run. -/
def ofStep (x : Step σ ε α) : Run σ ε α := fun s =>
  match x s with
  | .ok a s' => .ok a s'
  | .error e s' => .error (.failed e) s'

/-- A value or a cause of failure, neither touching the state. -/
def ofExcept (r : Except ε α) : Run σ ε α := ofStep (Step.ofExcept r)

/-- Hands a failure to the caller as a value; a run cut off by its depth limit stays cut off. -/
def attempt (x : Run σ ε α) : Run σ δ (Except ε α) := fun s =>
  match x s with
  | .ok a s' => .ok (.ok a) s'
  | .error (.failed e) s' => .ok (.error e) s'
  | .error .exhausted s' => .error .exhausted s'

/-- Renames the cause of failure. -/
def mapError (f : ε → δ) (x : Run σ ε α) : Run σ δ α := fun s =>
  match x s with
  | .ok a s' => .ok a s'
  | .error (.failed e) s' => .error (.failed (f e)) s'
  | .error .exhausted s' => .error .exhausted s'

/-- Runs on a part of a larger state: `get` reads the part, `set` puts it back. -/
def zoom (get : τ → σ) (set : σ → τ → τ) (x : Run σ ε α) : Run τ ε α := fun t =>
  match x (get t) with
  | .ok a s' => .ok a (set s' t)
  | .error e s' => .error e (set s' t)

/-- How a run ends on a given state: `none` if the depth limit cut it off. -/
def outcome (x : Run σ ε α) (s : σ) : Option (Except ε α × σ) :=
  match x s with
  | .ok a s' => some (.ok a, s')
  | .error (.failed e) s' => some (.error e, s')
  | .error .exhausted _ => none

end Run

end FileProvider
