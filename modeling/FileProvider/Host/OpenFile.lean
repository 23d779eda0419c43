import FileProvider.Host.System

/-!
# Open files of the host

An open file refers to a content, whatever becomes of the name by which it was opened. A directory can
be open too, but there is nothing to be read from it.
-/

set_option autoImplicit false

namespace FileProvider.Host

/-- A file or a directory that is open. -/
structure OpenFile where
  /-- The number of the content; a directory has none. -/
  id : Option Nat
  position : Nat
  mode : OpenMode
deriving DecidableEq, Repr

/-- Opens what a location leads to. -/
def openFile (l : Location) (m : OpenMode) : Op OpenFile := do
  pure ⟨← openNode l m, 0, m⟩

namespace OpenFile

/-- Whether bytes can be written. -/
def writable (f : OpenFile) : Bool := f.mode.write || f.mode.append

/-- The last position of a file: its blocks of 4096 bytes are counted by 32 bits. -/
def fileLimit : Nat := 0xffffffff000

/-- The last position of a directory, which is also where a directory ends. -/
def dirLimit : Nat := 0x7fffffffffffffff

/-- The last position of what is open. -/
def limit (f : OpenFile) : Nat := if f.id.isSome then fileLimit else dirLimit

/-- The position at which an open file ends. -/
def stop (f : OpenFile) (h : Host) : Nat :=
  match f.id with
  | some id => (h.content id).length
  | none => dirLimit

/-- The position that a seek asks for, if there is one. -/
def sought (f : OpenFile) (h : Host) (whence : Whence) : Option Nat :=
  let wanted : Int := match whence with
    | .start offset => offset
    | .current offset => f.position + offset
    | .fromEnd offset => f.stop h + offset
  if 0 ≤ wanted ∧ wanted ≤ f.limit then some wanted.toNat else none

/-- The bytes from the position on, of which so many are asked for at once. From a directory nothing
can be read, and nothing can be asked for behind its end. -/
def ahead (f : OpenFile) (count : Nat) : Op Bytes := do
  if !f.mode.read then throw (.os Errno.badDescriptor)
  match f.id with
  | some id => pure (((← get).content id).drop f.position)
  | none =>
    throw (.os (if dirLimit < f.position + count then Errno.invalid else Errno.isADirectory))

/-- The open file after so many bytes were passed. -/
def advance (f : OpenFile) (count : Nat) : OpenFile := { f with position := f.position + count }

end OpenFile

/-- An operation on an open file and the host. -/
abbrev FileOp (α : Type) : Type := Step (OpenFile × Host) IoError α

/-- An operation on the host, seen as one on an open file. -/
def onHost {α : Type} (x : Op α) : FileOp α := x.zoom Prod.snd fun h (f, _) => (f, h)

/-- Moves the position behind what was read or written. -/
def pass (count : Nat) : FileOp Unit := modify fun (f, h) => (f.advance count, h)

/-- Reads at most so many bytes. -/
def readSome (count : Nat) : FileOp Bytes := do
  let (f, _) ← get
  let bytes := (← onHost (f.ahead count)).take count
  pass bytes.length
  pure bytes

/-- How many bytes a read to the end asks for at first. -/
def firstRequest : Nat := 32

/-- Reads to the end. -/
def readRest : FileOp Bytes := do
  let (f, _) ← get
  let bytes ← onHost (f.ahead firstRequest)
  pass bytes.length
  pure bytes

/-- Writes bytes at the position, or at the end in append mode, as far as the file may reach. -/
def writeBytes (bytes : Bytes) : FileOp Nat := do
  let (f, h) ← get
  match f.id with
  | none => throw (.os Errno.badDescriptor)
  | some id =>
    if !f.writable then throw (.os Errno.badDescriptor)
    if bytes.isEmpty then return 0
    let old := h.content id
    let position := if f.mode.append then old.length else f.position
    let fitting := bytes.take (OpenFile.fileLimit - position)
    if fitting.isEmpty then throw (.os Errno.fileTooLarge)
    onHost (setContent id (Bytes.splice old position fitting))
    modify fun (f, h) => ({ f with position := position + fitting.length }, h)
    pure fitting.length

/-- Moves the position. -/
def seek (whence : Whence) : FileOp Nat := do
  let (f, h) ← get
  match f.sought h whence with
  | some position =>
    set ({ f with position := position }, h)
    pure position
  | none => throw (.os Errno.invalid)

/-- Reads from, writes to or moves within an open file. -/
def io : {α : Type} → Io α → FileOp α
  | _, .read count => readSome count
  | _, .readAll => readRest
  | _, .write bytes => writeBytes bytes
  | _, .seek whence => seek whence
  | _, .flush => pure ()

end FileProvider.Host
