import FileProvider.Service.Basic
import FileProvider.Service.Column

/-!
# Queries

A query gives one text per column asked for. The size of a directory is the sum of the sizes of the
files below it; what cannot be read below it counts as nothing.
-/

set_option autoImplicit false

namespace FileProvider

namespace Backend

variable {σ η : Type}

/-- The sizes of what is below a directory, summed up. -/
def sizeWalk (b : Backend σ η) : Nat → Path → Run σ FsError UInt64
  | 0, _ => Run.exhausted
  | depth + 1, path => do
    match ← (b.run (.list path)).attempt with
    | .error _ => pure 0
    | .ok entries =>
      entries.foldlM (fun sum entry => do
        let child := path.join entry.name
        match ← (b.run (.stat child)).attempt with
        | .error _ => pure sum
        | .ok stat =>
          if stat.isDir then do pure (sum + (← b.sizeWalk depth child)) else pure (sum + stat.size))
        0

/-- The size of a directory. -/
def dirSize (b : Backend σ η) (path : Path) : Run σ FsError UInt64 := fun s =>
  b.sizeWalk (b.depth s) path s

/-- The text of one column for an entry with a given stat record. -/
def column (b : Backend σ η) (path : String) (stat : Stat) : Column → Run σ FsError String
  | .stat .size =>
    if stat.isDir then do pure (toString (← b.dirSize ⟨path⟩).toNat) else pure (stat.valueOf .size)
  | .stat field => pure (stat.valueOf field)
  | .displayName => pure (String.ofList (Text.afterLastSlash path.toList))
  | .relativePath => pure (String.ofList (Text.throughLastSlash path.toList))
  | .unknown => pure ""

/-- The texts of the columns with given names. -/
def columns (b : Backend σ η) (path : String) (stat : Stat) (names : List String) :
    Run σ FsError (List String) := names.mapM fun name => b.column path stat (Column.ofName name)

end Backend

/-- Queries the entry at a URI; an entry about which it cannot be said that it is there is not. -/
def Service.query {σ η : Type} (b : Backend σ η) (uri : String) (names : List String) :
    Service.Op σ η (List String) := do
  check uri
  let path ← pathText uri
  match ← (onFs (b.run (.probe ⟨path⟩))).attempt with
  | .ok true =>
    let stat ← reportAs (b.run (.stat ⟨path⟩))
    passOn (b.columns path stat names)
  | _ => Run.fail (.notFound path)

end FileProvider
