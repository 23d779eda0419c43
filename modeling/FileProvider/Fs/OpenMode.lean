import FileProvider.Fs.Error

/-!
# How a file is opened, and how a move treats what is in its way

An open mode is six independent wishes. `OpenMode.ofBits` reads them from the bits of the system's
open call, of which one access mode is undefined and refused.
-/

set_option autoImplicit false

namespace FileProvider

/-- What a caller wants to do with a file it opens. -/
structure OpenMode where
  read : Bool := false
  write : Bool := false
  /-- Write only at its end. -/
  append : Bool := false
  truncate : Bool := false
  /-- Create it if it is missing. -/
  create : Bool := false
  /-- Create it, and fail if it is there. -/
  createNew : Bool := false
deriving DecidableEq, Repr, Inhabited

namespace OpenMode

/-- The mode in which a new file is created. -/
def forCreation : OpenMode := { write := true, create := true }

/-- Whether the bits of `mask` are set in `bits`, at least one of them. -/
def hasBits (bits mask : UInt32) : Bool := bits &&& mask != 0

/-- Reads an open mode from the bits of the system's open call: the lowest two are the access mode,
octal 100 creates, octal 200 insists on creating, octal 1000 truncates and octal 2000 appends. -/
def ofBits (bits : UInt32) : Except FsError OpenMode :=
  let access := bits &&& 3
  if access = 3 then .error (.invalidArgument "invalid access mode: 0o3")
  else
    let create := hasBits bits 0x40
    let exclusive := hasBits bits 0x80
    .ok {
      read := access != 1
      write := access != 0
      append := hasBits bits 0x400
      truncate := hasBits bits 0x200
      create := create && !exclusive
      createNew := create && exclusive }

/-- The flags with their written names. -/
def flags (m : OpenMode) : List (String × Bool) :=
  [("append", m.append), ("create", m.create), ("create_new", m.createNew), ("read", m.read),
    ("truncate", m.truncate), ("write", m.write)]

/-- Writes an open mode; only what is wished for appears. -/
def toJson (m : OpenMode) : Json :=
  .obj ((m.flags.filter (·.2)).map fun (name, value) => (name, .bool value))

/-- The fields of an open mode in declared order. -/
def declared : List String := ["read", "write", "append", "truncate", "create", "create_new"]

def ofJson (j : Json) : Json.Read OpenMode :=
  j.record declared true fun fields => do
    let flag (key : String) : Json.Read Bool := Json.optional fields key Json.boolean false
    .ok {
      read := ← flag "read"
      write := ← flag "write"
      append := ← flag "append"
      truncate := ← flag "truncate"
      create := ← flag "create"
      createNew := ← flag "create_new" }

end OpenMode

/-- What a move does when its destination is taken. -/
inductive Conflict where
  /-- It fails. -/
  | refuse
  /-- It merges directories and overwrites files. -/
  | overwrite
  /-- It removes a destination directory first. -/
  | replace
deriving DecidableEq, Repr, Inhabited

namespace Conflict

/-- The name of a policy. -/
def name : Conflict → String
  | .refuse => "no_overwrite"
  | .overwrite => "overwrite_files"
  | .replace => "replace_directory"

def toJson (c : Conflict) : Json := .str c.name

def ofJson (j : Json) : Json.Read Conflict := do
  match ← j.constant with
  | "no_overwrite" => .ok .refuse
  | "overwrite_files" => .ok .overwrite
  | "replace_directory" => .ok .replace
  | _ => .error .malformed

end Conflict

end FileProvider
