import FileProvider.Memory.OpenFile

/-!
# The backend in memory

Every path is read as a location first, so that all spellings of a location behave alike.
-/

set_option autoImplicit false

namespace FileProvider.Memory

/-- Answers a call. -/
def call : {α : Type} → Call OpenFile α → Op α
  | _, .read path => read path.location
  | _, .write path data => write path.location data
  | _, .create path => write path.location []
  | _, .delete path => delete path.location
  | _, .probe path => do pure (← look path.location).isSome
  | _, .stat path => stat path.location
  | _, .list path => list path.location
  | _, .createDir path => createDir path.location
  | _, .removeDir path => removeDir path.location
  | _, .rename source target => rename source.location target.location
  | _, .openFile path mode => openFile path.location mode

/-- The backend in memory; no job is done in one go, and no walk that ends is deeper than there are
entries. -/
def backend : Backend Store OpenFile where
  name := "memory"
  call := call
  io := io
  sync := sync
  statFile := statFile
  release := release
  native? _ := none
  depth s := s.entries.length + 1

end FileProvider.Memory
