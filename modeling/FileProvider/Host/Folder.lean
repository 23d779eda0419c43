import FileProvider.Fs.Tree
import FileProvider.Host.OpenFile

/-!
# A directory of the host as a filesystem

A folder is a directory of the host seen as a filesystem of its own. No path leads above it by its
steps, but a symbolic link may. Failures say which call on which path was refused. Copying and
removing trees are left to the host; a move is a rename when nothing is in its way, unless it leaves the
device.
-/

set_option autoImplicit false

namespace FileProvider.Host.Folder

/-- The host location of a path in the folder at `base`. -/
def locate (base : Location) (path : Path) : Location := base ++ path.confined

/-- A call on the host; `context` says what it did. -/
def host {α : Type} (context : String) (x : Op α) : Step Host FsError α := fun h =>
  match x h with
  | .ok a h' => .ok a h'
  | .error e h' => .error (FsError.ofIo e context) h'

/-- Whether there is an entry; a link counts as one, wherever it leads. -/
def probe (base : Location) (path : Path) : Step Host FsError Bool := fun h =>
  match present .kept (locate base path) h with
  | .ok _ h' => .ok true h'
  | .error e h' =>
    if e.kind = .notFound then .ok false h'
    else .error (FsError.ofIo e ("access " ++ path.text)) h'

/-- The entries of a directory, if their names are all text. -/
def list (base : Location) (path : Path) : Step Host FsError (List Entry) := do
  let entries ← host ("list_dir " ++ path.text) (readDir (locate base path))
  if entries.all fun e => Name.isText e.name then pure entries
  else throw (.invalidPath "invalid UTF-8 in filename")

/-- What a call on two paths did. -/
def between (verb : String) (source target : Path) : String :=
  verb ++ " " ++ source.text ++ " to " ++ target.text

/-- Answers a call. -/
def call (base : Location) : {α : Type} → Call OpenFile α → Step Host FsError α
  | _, .read path => host ("read " ++ path.text) (readFile (locate base path))
  | _, .write path data => host ("write " ++ path.text) (writeFile (locate base path) data)
  | _, .create path => host ("create " ++ path.text) (writeFile (locate base path) [])
  | _, .delete path => host ("delete " ++ path.text) (unlink (locate base path))
  | _, .probe path => probe base path
  | _, .stat path => host ("metadata " ++ path.text) (stat (locate base path))
  | _, .list path => list base path
  | _, .createDir path => host ("create_dir " ++ path.text) (createDir (locate base path))
  | _, .removeDir path => host ("remove_dir " ++ path.text) (removeDir (locate base path))
  | _, .rename source target =>
    host (between "rename" source target) (Host.rename (locate base source) (locate base target))
  | _, .openFile path mode => host ("open " ++ path.text) (openFile (locate base path) mode)

/-- The jobs that the host does in one go. -/
def hostJob? (base : Location) : Job → Option (Run Host FsError Unit)
  | .copy source target =>
    some (Run.ofStep (host (between "copy" source target)
      (copyFile (locate base source) (locate base target))))
  | .removeTree path =>
    some (Run.ofStep (host ("remove_dir_all " ++ path.text) (removeTree (locate base path))))
  | .moveTree _ _ _ => none

/-- The folder at `base`, moves being made of calls. A walk that ends is no deeper than a path can be
long, nor than the tree is for every link on the way. -/
def walking (base : Location) : Backend Host OpenFile where
  name := "local"
  call := call base
  io := io
  sync := pure ()
  statFile := do
    let (f, h) ← get
    pure (h.statOf f.id)
  release _ h := h
  native? := hostJob? base
  depth h := (linkLimit + 1) * (h.entries.length + 1) + pathLimit

/-- Moves an entry: renames it if nothing is in its way and it stays on its device, and otherwise moves it
by copying. -/
def move (base : Location) (source target : Path) (conflict : Conflict) : Run Host FsError Unit := do
  let byCopy := (walking base).moveByCopy source target conflict
  if ← (walking base).run (.probe target) then byCopy
  else
    match ← ((walking base).run (.rename source target)).attempt with
    | .ok () => pure ()
    | .error .crossDevice => byCopy
    | .error e => Run.fail e

/-- The folder at `base` as a backend. -/
def backend (base : Location) : Backend Host OpenFile :=
  { walking base with
    native? := fun job =>
      match job with
      | .moveTree source target conflict => some (move base source target conflict)
      | job => hostJob? base job }

end FileProvider.Host.Folder
