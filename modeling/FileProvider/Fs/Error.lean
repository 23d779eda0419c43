import FileProvider.Json

/-!
# Causes of failure of a filesystem

Each cause has a text, a stable platform code in the range from 13900000, and a tagged written form.
The text of a cause that carries one is never empty when it is read back.
-/

set_option autoImplicit false

namespace FileProvider

/-- A status code as callers see it. -/
abbrev StatusCode : Type := Int32

/-- Why a filesystem refused a call. -/
inductive FsError where
  | notFound (what : String)
  | alreadyExists (what : String)
  | permissionDenied (what : String)
  | notADirectory (what : String)
  | isADirectory (what : String)
  | directoryNotEmpty (what : String)
  | invalidPath (what : String)
  | io (what : String)
  | notSupported (what : String)
  | badDescriptor (fd : Int32)
  | outOfSpace
  | invalidArgument (what : String)
  | readOnly
  | crossDevice
deriving DecidableEq, Repr, Inhabited

namespace FsError

/-- The cause in words. -/
def message : FsError → String
  | .notFound what => "Not found: " ++ what
  | .alreadyExists what => "Already exists: " ++ what
  | .permissionDenied what => "Permission denied: " ++ what
  | .notADirectory what => "Not a directory: " ++ what
  | .isADirectory what => "Is a directory: " ++ what
  | .directoryNotEmpty what => "Directory not empty: " ++ what
  | .invalidPath what => "Invalid path: " ++ what
  | .io what => "I/O error: " ++ what
  | .notSupported what => "Not supported: " ++ what
  | .badDescriptor fd => "Bad file descriptor: " ++ toString fd.toInt
  | .outOfSpace => "Out of space"
  | .invalidArgument what => "Invalid argument: " ++ what
  | .readOnly => "Read-only filesystem"
  | .crossDevice => "Cross-device link"

/-- The platform code: the number of the system's own error, counted from 13900000. -/
def code : FsError → StatusCode
  | .notFound _ => 13900002
  | .io _ => 13900005
  | .badDescriptor _ => 13900008
  | .permissionDenied _ => 13900012
  | .alreadyExists _ => 13900015
  | .crossDevice => 13900016
  | .notADirectory _ => 13900018
  | .isADirectory _ => 13900019
  | .invalidPath _ => 13900020
  | .invalidArgument _ => 13900020
  | .outOfSpace => 13900025
  | .readOnly => 13900027
  | .notSupported _ => 13900031
  | .directoryNotEmpty _ => 13900032

/-- The tag of the written form. -/
def tag : FsError → String
  | .notFound _ => "not_found"
  | .alreadyExists _ => "already_exists"
  | .permissionDenied _ => "permission_denied"
  | .notADirectory _ => "not_a_directory"
  | .isADirectory _ => "is_a_directory"
  | .directoryNotEmpty _ => "directory_not_empty"
  | .invalidPath _ => "invalid_path"
  | .io _ => "io_error"
  | .notSupported _ => "not_supported"
  | .badDescriptor _ => "bad_descriptor"
  | .outOfSpace => "out_of_space"
  | .invalidArgument _ => "invalid_argument"
  | .readOnly => "read_only"
  | .crossDevice => "cross_device"

/-- What the written form holds beside the tag. -/
def details : FsError → Option Json
  | .notFound what => some (.str what)
  | .alreadyExists what => some (.str what)
  | .permissionDenied what => some (.str what)
  | .notADirectory what => some (.str what)
  | .isADirectory what => some (.str what)
  | .directoryNotEmpty what => some (.str what)
  | .invalidPath what => some (.str what)
  | .io what => some (.str what)
  | .notSupported what => some (.str what)
  | .badDescriptor fd => some (.ofSigned32 fd)
  | .outOfSpace => none
  | .invalidArgument what => some (.str what)
  | .readOnly => none
  | .crossDevice => none

def toJson (e : FsError) : Json :=
  match e.details with
  | some d => .obj [("details", d), ("error", .str e.tag)]
  | none => .obj [("error", .str e.tag)]

/-- Reads the text of a cause, which may not be empty. -/
def text (j : Json) : Json.Read String := do
  let s ← j.string
  if s.isEmpty then .error (.refused "error message must not be empty") else .ok s

/-- Reads a cause whose tag is read by `readTag`. -/
def read (readTag : Json → Json.Read String) (j : Json) : Json.Read FsError :=
  j.tagged readTag "error" "details" fun name details =>
    match name with
    | "not_found" => (Json.content text details).map .notFound
    | "already_exists" => (Json.content text details).map .alreadyExists
    | "permission_denied" => (Json.content text details).map .permissionDenied
    | "not_a_directory" => (Json.content text details).map .notADirectory
    | "is_a_directory" => (Json.content text details).map .isADirectory
    | "directory_not_empty" => (Json.content text details).map .directoryNotEmpty
    | "invalid_path" => (Json.content text details).map .invalidPath
    | "io_error" => (Json.content text details).map .io
    | "not_supported" => (Json.content text details).map .notSupported
    | "bad_descriptor" => (Json.content Json.signed32 details).map .badDescriptor
    | "out_of_space" => Json.noContent .outOfSpace details
    | "invalid_argument" => (Json.content text details).map .invalidArgument
    | "read_only" => Json.noContent .readOnly details
    | "cross_device" => Json.noContent .crossDevice details
    | _ => .error .malformed

/-- Reads a cause that stands by itself. -/
def ofJson (j : Json) : Json.Read FsError := read Json.constant j

end FsError

end FileProvider
