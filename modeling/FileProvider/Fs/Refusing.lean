import FileProvider.Fs.Backend

/-!
# Backends that refuse some calls for good

A refusing backend lets the same calls fail every time they are made, whatever happened in between, and
before they have any effect. A schedule counts the calls; here only the call itself decides, so that a
directory which cannot be read stays one that cannot be read. No job is done in one go, so that every call
of a job can be refused.
-/

set_option autoImplicit false

namespace FileProvider

/-- The backend `b` with some calls refused, each for the cause that `refusal` gives. -/
def Backend.refusing {σ η : Type} (refusal : (α : Type) → Call η α → Option FsError) (b : Backend σ η) :
    Backend σ η where
  name := b.name
  call {α} c :=
    match refusal α c with
    | some cause => throw cause
    | none => b.call c
  io op := b.io op
  sync := b.sync
  statFile := b.statFile
  release := b.release
  native? _ := none
  depth := b.depth

end FileProvider
