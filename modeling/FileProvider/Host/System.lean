import FileProvider.Host.Tree

/-!
# What programs ask of the host

The calls by which a program uses the host's tree, with the errors in the order in which the system
finds them. Nothing is refused for want of permission. Directories are listed by name. An entry keeps to
its device, and a directory at which a device is mounted can be neither renamed nor removed.
-/

set_option autoImplicit false

namespace FileProvider.Host

/-- An operation on the host. -/
abbrev Op (α : Type) : Type := Step Host IoError α

/-- The place that a location leads to. -/
def place (ending : Ending) (l : Location) : Op Place := do
  Step.ofExcept ((← get).resolve ending l)

/-- The place that a location leads to and what is there. -/
def present (ending : Ending) (l : Location) : Op (Location × HostNode) := do
  match ← place ending l with
  | (found, some node) => pure (found, node)
  | (_, none) => throw (.os Errno.noEntry)

/-- The stat record of an entry, links being followed. -/
def stat (l : Location) : Op Stat := do
  match ← present .followed l with
  | (_, .file id) => pure ((← get).statOf (some id))
  | _ => pure ((← get).statOf none)

/-- The names and nodes of a directory, in the order of the names. -/
def sorted (nodes : List (String × HostNode)) : List (String × HostNode) :=
  nodes.mergeSort fun a b => !(b.1 < a.1)

/-- The entries of a directory; their kinds are their own, links not being followed. -/
def readDir (l : Location) : Op (List Entry) := do
  match ← present .followed l with
  | (found, .dir) =>
    pure ((sorted ((← get).entries.children found)).map fun (name, node) => ⟨name, node.kind⟩)
  | _ => throw (.os Errno.notADirectory)

/-- Everything below a location, depth first and by name. -/
def below (h : Host) (l : Location) : List (Location × HostNode) :=
  h.entries.walk sorted h.entries.length l

/-- Creates a directory. -/
def createDir (l : Location) : Op Unit := do
  match ← place .kept l with
  | (_, some _) => throw (.os Errno.taken)
  | (found, none) => modify fun h => { h with entries := h.entries.put found .dir }

/-- Creates a directory and those on the way to it, as far as they are missing. -/
def createDirs (l : Location) : Op Unit :=
  (List.range l.length).forM fun n =>
    tryCatch (createDir (l.take (n + 1))) fun e =>
      if e = .os Errno.taken then pure () else throw e

/-- Creates a symbolic link; it cannot lead to the empty path. -/
def createLink (target : String) (l : Location) : Op Unit := do
  if target.isEmpty then throw (.os Errno.noEntry)
  match ← place .kept l with
  | (_, some _) => throw (.os Errno.taken)
  | (found, none) =>
    modify fun h => { h with entries := h.entries.put found (.link (Path.ofText target)) }

/-- Removes the directory at a place; it must be empty, and no device mounted at it. -/
def removeDirAt (found : Location) : Op Unit := do
  let h ← get
  if h.isMount found then throw (.os Errno.busy)
  if !(h.entries.children found).isEmpty then throw (.os Errno.notEmpty)
  set { h with entries := h.entries.erase found }

/-- Removes an empty directory. -/
def removeDir (l : Location) : Op Unit := do
  match ← present .kept l with
  | (found, .dir) => removeDirAt found
  | _ => throw (.os Errno.notADirectory)

/-- Removes a file or a link. -/
def unlink (l : Location) : Op Unit := do
  match ← present .kept l with
  | (_, .dir) => throw (.os Errno.isADirectory)
  | (found, _) => modify fun h => { h with entries := h.entries.erase found }

/-- Removes what is at a place, if it is a directory, by the rules for directories. -/
def removeAt (found : Location) : Op Unit := do
  match (← get).find? found with
  | some .dir => removeDirAt found
  | _ => modify fun h => { h with entries := h.entries.erase found }

/-- Removes the directory at a place after everything below it. What was removed before something is
refused stays removed. -/
def removeTreeAt (found : Location) : Op Unit := do
  ((← get).below found).reverse.forM fun (p, _) => removeAt p
  removeDirAt found

/-- Removes a directory with everything below it; a link is removed as such. -/
def removeTree (l : Location) : Op Unit := do
  match ← present .kept l with
  | (found, .dir) => removeTreeAt found
  | (found, .link _) => modify fun h => { h with entries := h.entries.erase found }
  | _ => throw (.os Errno.notADirectory)

/-- The directory in which the last name of a location is looked up, and that name. -/
def parentOf (l : Location) : Op (Location × String) := do
  match l.split? with
  | none => throw (.os Errno.busy)
  | some (parent, name) =>
    match ← present .followed parent with
    | (found, .dir) => pure (found, name)
    | _ => throw (.os Errno.notADirectory)

/-- The entry of that name in a directory. -/
def lookup (dir : Location) (name : String) : Op Place := do
  if nameLimit < Name.size name then throw (.os Errno.nameTooLong)
  let h ← get
  pure (dir ++ [name], h.find? (dir ++ [name]))

/-- Checks that a node is of a kind to take the place of what is there: a directory that of a
directory, and something else that of something else. -/
def checkKinds (node : HostNode) : Option HostNode → Except IoError Unit
  | none => .ok ()
  | some there =>
    if node.isDir = there.isDir then .ok ()
    else .error (.os (if node.isDir then Errno.notADirectory else Errno.isADirectory))

/-- The directories in which the last names of two locations are looked up, and those names. -/
def parentsOf (source target : Location) : Op ((Location × String) × Location × String) := do
  Step.ofExcept (spellable source)
  Step.ofExcept (spellable target)
  Step.ofExcept (askable source)
  Step.ofExcept (askable target)
  pure (← parentOf source, ← parentOf target)

/-- Gives what is at or below one place another; the devices that are mounted there go with it. -/
def relocate (h : Host) (old new : Location) : Host :=
  { h with
    entries := h.entries.relocate old new
    mounts := h.mounts.map (Catalogue.rebase old new) }

/-- Gives an entry another place on its device. -/
def renameWithin (sourceDir : Location) (sourceName : String) (targetDir : Location)
    (targetName : String) : Op Unit := do
  match ← lookup sourceDir sourceName with
  | (_, none) => throw (.os Errno.noEntry)
  | (old, some node) =>
    let (new, there) ← lookup targetDir targetName
    if old.isWithin targetDir then throw (.os Errno.invalid)
    if new.isWithin sourceDir then throw (.os Errno.notEmpty)
    -- Two names of one file are both kept.
    if old = new || node.kind = .file && there = some node then return
    Step.ofExcept (checkKinds node there)
    let h ← get
    if h.isMount old || h.isMount new then throw (.os Errno.busy)
    if !(h.entries.children new).isEmpty then throw (.os Errno.notEmpty)
    set (h.relocate old new)

/-- Gives an entry another place; links at either end are not followed. -/
def rename (source target : Location) : Op Unit := do
  let ((sourceDir, sourceName), targetDir, targetName) ← parentsOf source target
  let h ← get
  if h.device sourceDir ≠ h.device targetDir then throw (.os Errno.crossDevice)
  renameWithin sourceDir sourceName targetDir targetName

/-- Puts a new empty file at a place where nothing is. -/
def addFile (found : Location) : Op Nat := fun h =>
  .ok h.nextId { h with
    entries := h.entries.put found (.file h.nextId)
    contents := (h.nextId, []) :: h.contents
    nextId := h.nextId + 1 }

/-- Replaces a content. -/
def setContent (id : Nat) (data : Bytes) : Op Unit := modify fun h =>
  { h with contents := h.contents.map fun e => if e.1 = id then (id, data) else e }

/-- Whether a mode can be asked for at all: some access, nothing that changes a file without access
to write, and no truncation of a file that is only appended to. -/
def validMode (m : OpenMode) : Bool :=
  let writes := m.write || m.append
  let changes := m.truncate || m.create || m.createNew
  (m.read || writes) && (writes || !changes) && !(m.append && m.truncate && !m.createNew)

/-- How the last name of what is opened is treated. -/
def ending (m : OpenMode) : Ending :=
  if m.createNew then .kept else if m.create then .created else .followed

/-- Opens what a location leads to: a file by the number of its content, a directory only for
reading. -/
def openNode (l : Location) (m : OpenMode) : Op (Option Nat) := do
  Step.ofExcept (spellable l)
  if !validMode m then throw (.os Errno.invalid)
  match ← place (ending m) l with
  | (found, none) =>
    if m.create || m.createNew then do pure (some (← addFile found))
    else throw (.os Errno.noEntry)
  | (_, some node) =>
    if m.createNew then throw (.os Errno.taken)
    match node with
    | .file id =>
      if m.truncate then setContent id []
      pure (some id)
    | _ =>
      if m.write || m.append || m.create then throw (.os Errno.isADirectory)
      pure none

/-- The content of a file. -/
def readFile (l : Location) : Op Bytes := do
  match ← openNode l { read := true } with
  | some id => pure ((← get).content id)
  | none => throw (.os Errno.isADirectory)

/-- Opens a file to replace its content, creating it if it is missing. -/
def recreate (l : Location) : Op Nat := do
  match ← openNode l { write := true, create := true, truncate := true } with
  | some id => pure id
  | none => throw (.os Errno.isADirectory)

/-- Replaces the content of a file, creating it if it is missing. -/
def writeFile (l : Location) (data : Bytes) : Op Unit := do
  let id ← recreate l
  setContent id data

/-- Copies the content of a file; the target is emptied before the source is read. -/
def copyFile (source target : Location) : Op Unit := do
  match ← openNode source { read := true } with
  | none =>
    throw (.custom .invalidInput
      "the source path is neither a regular file nor a symlink to a regular file")
  | some sourceId =>
    let targetId ← recreate target
    setContent targetId ((← get).content sourceId)

end FileProvider.Host
