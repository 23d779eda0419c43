import FileProvider.Fs.Error
import FileProvider.Fs.Kind

/-!
# Directory entries

An entry is a name and a kind. A name that comes from outside is checked: it is not empty and holds
neither a null character nor a path separator. Backends may list names that the check would refuse.
-/

set_option autoImplicit false

namespace FileProvider

/-- One entry of a directory. -/
structure Entry where
  name : String
  kind : FileKind
deriving DecidableEq, Repr, Inhabited

namespace Entry

/-- Whether the entry is a directory. -/
def isDir (e : Entry) : Bool := e.kind = .directory

/-- Checks a name that comes from outside. -/
def checkName (name : String) : Except FsError Unit :=
  if name.isEmpty then .error (.invalidPath "entry name cannot be empty")
  else if name.toList.contains '\x00' then
    .error (.invalidPath "entry name cannot contain null bytes")
  else if name.toList.any (fun c => c = '/' || c = '\\') then
    .error (.invalidPath "entry name cannot contain path separators")
  else .ok ()

/-- An entry with a checked name. -/
def make (name : String) (kind : FileKind) : Except FsError Entry := do
  checkName name
  .ok ⟨name, kind⟩

/-- Writes an entry; an unknown kind is left out. -/
def toJson (e : Entry) : Json :=
  if e.kind = .unknown then .obj [("name", .str e.name)]
  else .obj [("file_type", e.kind.toJson), ("name", .str e.name)]

/-- Reads a checked name. -/
def nameOfJson (j : Json) : Json.Read String := do
  let name ← j.string
  match checkName name with
  | .ok () => .ok name
  | .error e => .error (.refused e.message)

/-- Checks one field by itself; the first field in reading order that fails decides the fault. -/
def checkField : String × Json → Json.Read Unit
  | ("name", value) => do let _ ← nameOfJson value
  | ("file_type", value) => do let _ ← FileKind.ofJson value
  | _ => .error .malformed

def ofJson (j : Json) : Json.Read Entry :=
  j.record ["name", "file_type"] false fun fields => do
    fields.forM checkField
    let name ← Json.required fields "name" nameOfJson
    let kind ← Json.optional fields "file_type" FileKind.ofJson .unknown
    .ok ⟨name, kind⟩

end Entry

end FileProvider
