import FileProvider.Memory.Store

/-!
# Open files in memory

An open file works on a copy of the content that the file had when it was opened. What is written
stays in the copy until a flush, or until the file is let go; then the whole copy becomes the content
of the location at which the file was opened.
-/

set_option autoImplicit false

namespace FileProvider.Memory

/-- A file that is open. -/
structure OpenFile where
  location : Location
  /-- The copy of its content. -/
  data : Bytes
  /-- Where the next byte is read or written. -/
  position : Nat
  mode : OpenMode
  /-- Whether the copy holds anything that is not in the store. -/
  dirty : Bool
deriving DecidableEq, Repr

/-- Checks that a file may be opened, and creates it if it is missing and is to be created. -/
def prepare (l : Location) (mode : OpenMode) : Op Unit := do
  match ← look l with
  | some (.dir _ _) => throw (.isADirectory l.text)
  | some (.file _ _) => if mode.createNew then throw (.alreadyExists l.text)
  | none => if mode.create || mode.createNew then write l [] else throw (.notFound l.text)

/-- Opens a file. -/
def openFile (l : Location) (mode : OpenMode) : Op OpenFile := do
  prepare l mode
  if mode.truncate then write l []
  let data ← read l
  pure ⟨l, data, 0, mode, false⟩

namespace OpenFile

/-- The bytes that a read of at most so many bytes gives. -/
def ahead (h : OpenFile) (count : Nat) : Bytes := (h.data.drop h.position).take count

/-- The open file after so many bytes were passed. -/
def advance (h : OpenFile) (count : Nat) : OpenFile := { h with position := h.position + count }

/-- The open file after bytes were written; in append mode they go to the end. -/
def written (h : OpenFile) (bytes : Bytes) : OpenFile :=
  let position := if h.mode.append then h.data.length else h.position
  { h with
    data := Bytes.splice h.data position bytes
    position := position + bytes.length
    dirty := true }

/-- The refusal to read. -/
def notReadable : IoError := .custom .permissionDenied "file not opened for reading"

/-- The refusal to write. -/
def notWritable : IoError := .custom .permissionDenied "file not opened for writing"

/-- The refusal of a position. -/
def badSeek : IoError :=
  .custom .invalidInput "invalid seek to a negative or overflowing position"

/-- The position that a seek asks for, if there can be one. -/
def sought (h : OpenFile) : Whence → Option Nat
  | .start offset => some offset
  | .current offset => checked (h.position + offset)
  | .fromEnd offset => checked (h.data.length + offset)
where
  /-- A position is a word of 64 bits. -/
  checked (p : Int) : Option Nat := if 0 ≤ p ∧ p < UInt64.size then some p.toNat else none

end OpenFile

/-- Makes the copy of an open file the content of its location, if there is anything new in it. -/
def sync : Step (OpenFile × Store) FsError Unit := fun (h, s) =>
  if h.dirty then
    match write h.location h.data s with
    | .ok () s' => .ok () ({ h with dirty := false }, s')
    | .error e s' => .error e (h, s')
  else .ok () (h, s)

/-- Reads from, writes to or moves within an open file. -/
def io : {α : Type} → Io α → Step (OpenFile × Store) IoError α
  | _, .read count => fun (h, s) =>
    if h.mode.read then .ok (h.ahead count) (h.advance (h.ahead count).length, s)
    else .error OpenFile.notReadable (h, s)
  | _, .readAll => fun (h, s) =>
    if h.mode.read then .ok (h.data.drop h.position) (h.advance (h.data.drop h.position).length, s)
    else .error OpenFile.notReadable (h, s)
  | _, .write bytes => fun (h, s) =>
    if h.mode.write || h.mode.append then .ok bytes.length (h.written bytes, s)
    else .error OpenFile.notWritable (h, s)
  | _, .seek whence => fun (h, s) =>
    match h.sought whence with
    | some position => .ok position ({ h with position := position }, s)
    | none => .error OpenFile.badSeek (h, s)
  | _, .flush => fun hs =>
    match sync hs with
    | .ok () hs' => .ok () hs'
    | .error e hs' => .error (.custom .other e.message) hs'

/-- The stat record of what is now at the location of an open file. -/
def statFile : Step (OpenFile × Store) FsError Stat := do
  let (h, _) ← get
  (stat h.location).zoom Prod.snd fun s (h, _) => (h, s)

/-- The store after an open file was let go. -/
def release (h : OpenFile) (s : Store) : Store := ((sync.outcome (h, s)).2).2

end FileProvider.Memory
