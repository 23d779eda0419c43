import FileProvider.Service.Basic

/-!
# Moving entries

A move takes an entry into another directory under the same name. If one root covers both places the
filesystem renames the entry, otherwise it is moved by copying, and a failure of that is reported as
the service's own. An entry is never moved below its own path, nor into anything but a directory.
-/

set_option autoImplicit false

namespace FileProvider.Service

variable {σ η : Type}

/-- Whether one path, as text, lies strictly below another. -/
def isBelow (path ancestor : String) : Bool :=
  match ancestor.toList.isPrefixOf? path.toList with
  | none => false
  | some rest =>
    rest.head? = some '/' || (ancestor.toList.getLast? = some '/' && !rest.isEmpty)

/-- Checks that an entry can be moved into a directory. -/
def requireTargetDir (b : Backend σ η) (uri : String) : Op σ η Unit := do
  let path ← pathOf uri
  let refusal : ServiceError := .invalidOperation ("target " ++ uri ++ " is not a directory")
  match ← (onFs (b.run (.stat path))).attempt with
  | .ok stat => if !stat.isDir then Run.fail refusal
  | .error (.notFound _) => Run.fail refusal
  | .error e => Run.fail (.platform e)

/-- Checks that there is an entry to move. -/
def requireSource (b : Backend σ η) (path : Path) : Op σ η Unit := do
  if !(← passOn (b.run (.probe path))) then
    Run.fail (.invalidOperation ("source " ++ path.text ++ " is not accessible"))

/-- Takes an entry to its new path: in one go if a root covers both URIs, otherwise by copying. -/
def transfer (b : Backend σ η) (source target : String) (old new : Path) : Op σ η Unit := do
  if (← get).isCrossDevice source target then reportAs (b.moveTree old new .refuse)
  else passOn (b.run (.rename old new))

/-- Moves an entry into a directory; the answer is its new URI. -/
def moveFile (b : Backend σ η) (source target : String) : Op σ η String := do
  check source
  check target
  let newUri := Uri.child target (Uri.lastSegment source)
  let old ← pathOf source
  let new ← pathOf newUri
  if old = new then pure newUri
  else if isBelow new.text old.text then
    Run.fail (.invalidOperation ("cannot move " ++ old.text ++ " into its own subtree"))
  else
    requireSource b old
    requireTargetDir b target
    transfer b source target old new
    pure newUri

end FileProvider.Service
