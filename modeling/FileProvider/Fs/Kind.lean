import FileProvider.Json

/-!
# Kinds of filesystem entries

A kind has one name, which is also its written form.
-/

set_option autoImplicit false

namespace FileProvider

/-- What an entry of a filesystem is. -/
inductive FileKind where
  | file
  | directory
  | symlink
  /-- Anything else, and the kind of an entry whose kind is not given. -/
  | unknown
deriving DecidableEq, Repr

namespace FileKind

instance : Inhabited FileKind := ⟨.unknown⟩

/-- The name of a kind. -/
def name : FileKind → String
  | .file => "file"
  | .directory => "directory"
  | .symlink => "symlink"
  | .unknown => "unknown"

/-- The kind with a given name. -/
def ofName? : String → Option FileKind
  | "file" => some .file
  | "directory" => some .directory
  | "symlink" => some .symlink
  | "unknown" => some .unknown
  | _ => none

def toJson (k : FileKind) : Json := .str k.name

def ofJson (j : Json) : Json.Read FileKind := do
  match ofName? (← j.constant) with
  | some k => .ok k
  | none => .error .malformed

end FileKind

end FileProvider
