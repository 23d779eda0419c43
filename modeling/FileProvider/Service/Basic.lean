import FileProvider.Descriptors
import FileProvider.Fs.Tree
import FileProvider.Service.Reply
import FileProvider.Service.Root
import FileProvider.Volume.Hub

/-!
# The service

A service answers requests that name entries by URI. It holds a filesystem, the files that its
callers have open, and the mounted volumes. A request is checked before anything else happens: a URI
that is no address reaches neither the filesystem nor the open files.
-/

set_option autoImplicit false

namespace FileProvider

/-- A service over a filesystem with states of type `σ` and open files of type `η`. -/
structure Service (σ η : Type) where
  bundle : String
  fs : σ
  files : Descriptors η
  hub : VolumeHub

namespace Service

variable {σ η α : Type}

abbrev Op (σ η α : Type) : Type := Run (Service σ η) ServiceError α

/-- A service without open files and volumes. -/
def start (bundle : String) (fs : σ) : Service σ η := ⟨bundle, fs, .empty, .empty⟩

def withHub (f : VolumeHub → VolumeHub) (s : Service σ η) : Service σ η := { s with hub := f s.hub }

def roots (s : Service σ η) : List Root := Root.all s.bundle s.hub.table

/-- Whether no single root covers both URIs. -/
def isCrossDevice (s : Service σ η) (source target : String) : Bool :=
  Root.separates s.roots source target

/-- The path that a URI addresses, as text. -/
def pathText (uri : String) : Op σ η String := fun s => .ok (Uri.pathOf s.bundle uri) s

/-- The path that a URI addresses. -/
def pathOf (uri : String) : Op σ η Path := do pure ⟨← pathText uri⟩

/-- Refuses a URI that is no address. -/
def check (uri : String) : Op σ η Unit :=
  if Uri.isAddress uri then pure () else Run.fail (.invalidUri uri)

/-- A run of the filesystem, its failures being told apart by the caller. -/
def onFs (x : Run σ FsError α) : Run (Service σ η) FsError α :=
  x.zoom Service.fs fun fs s => { s with fs := fs }

/-- A run of the filesystem whose failures the service passes on. -/
def passOn (x : Run σ FsError α) : Op σ η α := (onFs x).mapError .platform

/-- A run of the filesystem whose failures the service reports as its own. -/
def reportAs (x : Run σ FsError α) : Op σ η α := (onFs x).mapError fun e => .invalidOperation e.message

/-- Opens a file and gives it a descriptor; a file for which there is none is let go. -/
def openPath (b : Backend σ η) (path : Path) (mode : OpenMode) :
    Run (Service σ η) FsError Descriptor := do
  let file ← onFs (b.run (.openFile path mode))
  let s ← get
  match s.files.insert file with
  | .ok (fd, files) =>
    set { s with files := files }
    pure fd
  | .error e =>
    set { s with fs := b.release file s.fs }
    Run.fail e

/-- Opens the file at a URI. -/
def openFile (b : Backend σ η) (uri : String) (bits : UInt32) : Op σ η Descriptor := do
  check uri
  let mode ← (Run.ofExcept (OpenMode.ofBits bits)).mapError .platform
  let path ← pathOf uri
  (openPath b path mode).mapError .platform

/-- Closes an open file; its descriptor is given back even if what was written is lost. -/
def closeFile (b : Backend σ η) (fd : Descriptor) : Run (Service σ η) FsError Unit := fun s =>
  match s.files.find? fd with
  | none => .error (.failed (.badDescriptor fd)) s
  | some file =>
    let closed (file : η) (fs : σ) : Service σ η :=
      { s with fs := b.release file fs, files := s.files.erase fd }
    match b.sync (file, s.fs) with
    | .ok () (file, fs) => .ok () (closed file fs)
    | .error e (file, fs) => .error (.failed e) (closed file fs)

/-- Takes a step on an open file. -/
def withFile {ε : Type} (fd : Descriptor) (x : Step (η × σ) ε α) :
    Step (Service σ η) FsError (Except ε α) := fun s =>
  match s.files.find? fd with
  | none => .error (.badDescriptor fd) s
  | some file =>
    let (result, file, fs) := x.outcome (file, s.fs)
    .ok result { s with fs := fs, files := s.files.replace fd file }

/-- Creates an empty file below a directory; the answer is its URI. -/
def createFile (b : Backend σ η) (parent name : String) : Op σ η String := do
  check parent
  let uri := Uri.child parent name
  let path ← pathOf uri
  if ← passOn (b.run (.probe path)) then Run.fail (.alreadyExists uri)
  let file ← passOn (b.run (.openFile path .forCreation))
  modify fun s => { s with fs := b.release file s.fs }
  pure uri

/-- Creates a directory below a directory; the answer is its URI. -/
def createDir (b : Backend σ η) (parent name : String) : Op σ η String := do
  check parent
  let uri := Uri.child parent name
  let path ← pathOf uri
  passOn (b.run (.createDir path))
  pure uri

/-- Deletes a file or an empty directory. -/
def delete (b : Backend σ η) (uri : String) : Op σ η Unit := do
  check uri
  let path ← pathOf uri
  if (← passOn (b.run (.stat path))).isDir then passOn (b.run (.removeDir path))
  else passOn (b.run (.delete path))

/-- Renames an entry within its directory; the answer is its new URI. -/
def rename (b : Backend σ η) (uri name : String) : Op σ η String := do
  check uri
  let newUri := Uri.renamed uri name
  let source ← pathOf uri
  let target ← pathOf newUri
  passOn (b.run (.rename source target))
  pure newUri

/-- Whether there is an entry. -/
def access (b : Backend σ η) (uri : String) : Op σ η Bool := do
  check uri
  let path ← pathOf uri
  passOn (b.run (.probe path))

end Service

end FileProvider
