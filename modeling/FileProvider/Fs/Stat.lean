import FileProvider.Fs.Kind

/-!
# Stat records

A stat record describes one entry. Times are signed microseconds from the epoch; in whole seconds a
time before the epoch counts as the epoch itself, and no such time has a written form.
-/

set_option autoImplicit false

namespace FileProvider

/-- A point in time: microseconds from the epoch. -/
abbrev Timestamp : Type := Int

/-- Whole seconds from the epoch; 0 before it. -/
def Timestamp.seconds (t : Timestamp) : Nat := (t / 1000000).toNat

/-- What a filesystem says about an entry. -/
structure Stat where
  kind : FileKind
  size : UInt64
  /-- Its mode bits, with those of the kind where the backend has them. -/
  mode : UInt32
  ino : UInt64
  uid : UInt32
  gid : UInt32
  /-- When its content last changed. -/
  modified : Timestamp
  /-- When it was last read. -/
  accessed : Timestamp
  /-- When its stat record last changed. -/
  changed : Timestamp
deriving DecidableEq, Repr, Inhabited

namespace Stat

/-- Whether the entry is a directory. -/
def isDir (s : Stat) : Bool := s.kind = .directory

/-- Whether the entry is a regular file. -/
def isFile (s : Stat) : Bool := s.kind = .file

/-- The same record with all three times at `t`. -/
def stamped (t : Timestamp) (s : Stat) : Stat := { s with modified := t, accessed := t, changed := t }

/-- Writes a time as unsigned microseconds. -/
def timeToJson (t : Timestamp) : Option Json := if t < 0 then none else some (.int (t % UInt64.size))

def timeOfJson (j : Json) : Json.Read Timestamp := j.between 0 (UInt64.size - 1)

/-- Writes a stat record, leaving out a size of 0; there is no form for times before the epoch. -/
def toJson? (s : Stat) : Option Json := do
  let modified ← timeToJson s.modified
  let accessed ← timeToJson s.accessed
  let changed ← timeToJson s.changed
  let size := if s.size = 0 then [] else [("size", Json.ofWord64 s.size)]
  some (.obj ([("accessed", accessed), ("changed", changed), ("file_type", s.kind.toJson),
    ("gid", .ofWord32 s.gid), ("ino", .ofWord64 s.ino), ("mode", .ofWord32 s.mode),
    ("modified", modified)] ++ size ++ [("uid", .ofWord32 s.uid)]))

/-- The fields of a stat record in declared order. -/
def declared : List String :=
  ["file_type", "size", "mode", "ino", "uid", "gid", "modified", "accessed", "changed"]

def ofJson (j : Json) : Json.Read Stat :=
  j.record declared true fun fields => do
    let kind ← Json.required fields "file_type" FileKind.ofJson
    let size ← Json.optional fields "size" Json.word64 0
    let mode ← Json.required fields "mode" Json.word32
    let ino ← Json.optional fields "ino" Json.word64 0
    let uid ← Json.optional fields "uid" Json.word32 0
    let gid ← Json.optional fields "gid" Json.word32 0
    let modified ← Json.required fields "modified" timeOfJson
    let accessed ← Json.required fields "accessed" timeOfJson
    let changed ← Json.required fields "changed" timeOfJson
    .ok ⟨kind, size, mode, ino, uid, gid, modified, accessed, changed⟩

end Stat

end FileProvider
