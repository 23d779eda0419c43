import FileProvider.Fs.Backend

/-!
# Backends that fail on schedule

A scheduled backend counts the calls that are made on it and lets those fail that its schedule names,
before they have any effect. A rule of a monitored backend concerns calls of one name; a schedule can
pick any calls. No job is done in one go, so that every call of a job can fail.
-/

set_option autoImplicit false

namespace FileProvider

/-- The state of a scheduled backend. -/
structure Scheduled (σ : Type) where
  inner : σ
  /-- How many calls were made. -/
  calls : Nat
deriving DecidableEq, Repr

namespace Scheduled

variable {σ η α : Type}

/-- A step of the backend itself. -/
def inside {ε : Type} (x : Step σ ε α) : Step (Scheduled σ) ε α :=
  Step.zoom Scheduled.inner (fun inner s => { s with inner := inner }) x

/-- A step on an open file and the backend itself. -/
def insideFile {ε : Type} (x : Step (η × σ) ε α) : Step (η × Scheduled σ) ε α :=
  Step.zoom (fun (h, s) => (h, s.inner)) (fun (h, inner) (_, s) => (h, { s with inner := inner })) x

/-- Counts a call and lets it fail if the schedule says so. -/
def count (schedule : Nat → Option FsError) : Step (Scheduled σ) FsError Unit := fun s =>
  match schedule s.calls with
  | some cause => .error cause { s with calls := s.calls + 1 }
  | none => .ok () { s with calls := s.calls + 1 }

/-- The backend `b` on a schedule: the call of a number fails for the cause that the schedule gives for
that number. -/
def backend (schedule : Nat → Option FsError) (b : Backend σ η) : Backend (Scheduled σ) η where
  name := b.name
  call c := do
    count schedule
    inside (b.call c)
  io op := insideFile (b.io op)
  sync := insideFile b.sync
  statFile := insideFile b.statFile
  release h s := { s with inner := b.release h s.inner }
  native? _ := none
  depth s := b.depth s.inner

end Scheduled

end FileProvider
