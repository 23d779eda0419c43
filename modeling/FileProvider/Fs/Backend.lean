import FileProvider.Fs.Bytes
import FileProvider.Fs.Entry
import FileProvider.Fs.Io
import FileProvider.Fs.OpenMode
import FileProvider.Fs.Stat
import FileProvider.Path.Basic
import FileProvider.Run

/-!
# Backends

A backend is a filesystem as its users see it. Its calls are values of the type `Call`, so that one
function can log them, refuse them or pass them on; what is done with an open file is a value of the
type `Io`. Copying, removing a tree and moving are jobs that a backend may do in one go.
-/

set_option autoImplicit false

namespace FileProvider

/-- A call on a filesystem whose open files are of type `η`, indexed by the type of its answer. -/
inductive Call (η : Type) : Type → Type where
  /-- The whole content of a file. -/
  | read (path : Path) : Call η Bytes
  /-- Replaces the content of a file, creating it if it is missing. -/
  | write (path : Path) (data : Bytes) : Call η Unit
  /-- Empties a file, creating it if it is missing. -/
  | create (path : Path) : Call η Unit
  /-- Removes an entry that is no directory. -/
  | delete (path : Path) : Call η Unit
  /-- Whether there is an entry. -/
  | probe (path : Path) : Call η Bool
  | stat (path : Path) : Call η Stat
  /-- The entries of a directory. -/
  | list (path : Path) : Call η (List Entry)
  /-- Creates one directory. -/
  | createDir (path : Path) : Call η Unit
  /-- Removes an empty directory. -/
  | removeDir (path : Path) : Call η Unit
  /-- Gives an entry another place. -/
  | rename (source target : Path) : Call η Unit
  | openFile (path : Path) (mode : OpenMode) : Call η η

namespace Call

variable {η α : Type}

def method : Call η α → String
  | .read _ => "read"
  | .write _ _ => "write"
  | .create _ => "create"
  | .delete _ => "delete"
  | .probe _ => "exists"
  | .stat _ => "metadata"
  | .list _ => "list_dir"
  | .createDir _ => "create_dir"
  | .removeDir _ => "remove_dir"
  | .rename _ _ => "rename"
  | .openFile _ _ => "open"

/-- The path of a call; of two, the first. -/
def subject : Call η α → Path
  | .read path => path
  | .write path _ => path
  | .create path => path
  | .delete path => path
  | .probe path => path
  | .stat path => path
  | .list path => path
  | .createDir path => path
  | .removeDir path => path
  | .rename source _ => source
  | .openFile path _ => path

/-- The second path of a call that has two. -/
def target? : Call η α → Option Path
  | .rename _ target => some target
  | _ => none

end Call

/-- A job that takes several calls unless a backend does it in one go. -/
inductive Job where
  | copy (source target : Path)
  | removeTree (path : Path)
  | moveTree (source target : Path) (conflict : Conflict)
deriving DecidableEq, Repr

namespace Job

def method : Job → String
  | .copy _ _ => "copy"
  | .removeTree _ => "remove_dir_all"
  | .moveTree _ _ _ => "move_dir"

/-- The path of a job; of two, the first. -/
def subject : Job → Path
  | .copy source _ => source
  | .removeTree path => path
  | .moveTree source _ _ => source

/-- The second path of a job that has two. -/
def target? : Job → Option Path
  | .copy _ target => some target
  | .removeTree _ => none
  | .moveTree _ target _ => some target

end Job

/-- Where a seek counts from. -/
inductive Whence where
  | start (offset : Nat)
  | current (offset : Int)
  | fromEnd (offset : Int)
deriving DecidableEq, Repr

/-- What is done with an open file, indexed by the type of its answer. -/
inductive Io : Type → Type where
  /-- Reads at most so many bytes. -/
  | read (count : Nat) : Io Bytes
  /-- Reads to the end. -/
  | readAll : Io Bytes
  /-- Writes bytes; the answer is how many. -/
  | write (data : Bytes) : Io Nat
  /-- Moves the position; the answer is the new one. -/
  | seek (whence : Whence) : Io Nat
  /-- Makes sure that what was written is in the file. -/
  | flush : Io Unit

/-- A filesystem with states of type `σ` and open files of type `η`. -/
structure Backend (σ η : Type) where
  name : String
  /-- Answers a call. -/
  call : {α : Type} → Call η α → Step σ FsError α
  /-- Reads from, writes to or moves within an open file. -/
  io : {α : Type} → Io α → Step (η × σ) IoError α
  /-- Brings everything written to an open file into the filesystem. -/
  sync : Step (η × σ) FsError Unit
  statFile : Step (η × σ) FsError Stat
  /-- Lets an open file go; failures on the way are lost. -/
  release : η → σ → σ
  /-- The jobs that the backend does in one go. -/
  native? : Job → Option (Run σ FsError Unit)
  /-- A depth that no walk exceeds which ends at all. -/
  depth : σ → Nat

end FileProvider
