import FileProvider.Fs.Backend

/-!
# Copying, removing trees and moving

The three jobs, made of calls for every backend that does not do them in one go. Removing and moving
walk the tree below a directory with an explicit depth limit; a walk that reaches the limit does not
count as a failure of the filesystem.
-/

set_option autoImplicit false

namespace FileProvider.Backend

variable {σ η α : Type}

/-- A call, seen as a run. -/
def run (b : Backend σ η) (c : Call η α) : Run σ FsError α := Run.ofStep (b.call c)

/-- Copies a file by reading and writing its content. -/
def copyContent (b : Backend σ η) (source target : Path) : Run σ FsError Unit := do
  let data ← b.run (.read source)
  b.run (.write target data)

/-- Copies a file. -/
def copy (b : Backend σ η) (source target : Path) : Run σ FsError Unit :=
  match b.native? (.copy source target) with
  | some job => job
  | none => b.copyContent source target

/-- Removes what is below a directory, entry by entry, and then the directory. -/
def removeWalk (b : Backend σ η) : Nat → Path → Run σ FsError Unit
  | 0, _ => Run.exhausted
  | depth + 1, path => do
    let entries ← b.run (.list path)
    entries.forM fun entry =>
      let child := path.join entry.name
      if entry.isDir then b.removeWalk depth child else b.run (.delete child)
    b.run (.removeDir path)

/-- Removes a directory with everything below it. -/
def removeTree (b : Backend σ η) (path : Path) : Run σ FsError Unit :=
  match b.native? (.removeTree path) with
  | some job => job
  | none => fun s => b.removeWalk (b.depth s) path s

/-- Checks that a file may be moved to `target`: nothing is there, or a file that may be
overwritten. -/
def roomForFile (b : Backend σ η) (target : Path) (conflict : Conflict) : Run σ FsError Unit := do
  if ← b.run (.probe target) then
    if conflict = .refuse then Run.fail (.alreadyExists target.text)
    else if (← b.run (.stat target)).isDir then Run.fail (.isADirectory target.text)

/-- Makes `target` a directory that may receive the entries of another one. -/
def roomForDir (b : Backend σ η) (target : Path) (conflict : Conflict) : Run σ FsError Unit := do
  if ← b.run (.probe target) then
    if !(← b.run (.stat target)).isDir then Run.fail (.notADirectory target.text)
    else
      match conflict with
      | .refuse => Run.fail (.alreadyExists target.text)
      | .overwrite => pure ()
      | .replace =>
        b.removeTree target
        b.run (.createDir target)
  else b.run (.createDir target)

/-- Moves an entry by copying: a file is copied and then deleted, a directory is received by another
one, entry by entry, and then removed. -/
def moveWalk (b : Backend σ η) : Nat → Path → Path → Conflict → Run σ FsError Unit
  | 0, _, _, _ => Run.exhausted
  | depth + 1, source, target, conflict => do
    if (← b.run (.stat source)).isDir then
      b.roomForDir target conflict
      let entries ← b.run (.list source)
      entries.forM fun entry =>
        b.moveWalk depth (source.join entry.name) (target.join entry.name) conflict
      b.run (.removeDir source)
    else
      b.roomForFile target conflict
      b.copy source target
      b.run (.delete source)

/-- Moves an entry by copying, as deep as the state allows. -/
def moveByCopy (b : Backend σ η) (source target : Path) (conflict : Conflict) :
    Run σ FsError Unit := fun s => b.moveWalk (b.depth s) source target conflict s

/-- Moves an entry with everything below it. -/
def moveTree (b : Backend σ η) (source target : Path) (conflict : Conflict) :
    Run σ FsError Unit :=
  match b.native? (.moveTree source target conflict) with
  | some job => job
  | none => b.moveByCopy source target conflict

end FileProvider.Backend
