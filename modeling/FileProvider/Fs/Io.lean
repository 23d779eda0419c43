import FileProvider.Fs.Error
import FileProvider.Fs.SystemError

/-!
# Input and output errors

An input or output error is either an error of the operating system or one with a kind and a text of
its own. `FsError.ofIo` keeps the most specific cause that a filesystem call can report for it: first
by kind, then by the system's number, and otherwise the error's text after the context of the call.
-/

set_option autoImplicit false

namespace FileProvider

/-- The kinds of errors that callers tell apart. -/
inductive IoKind where
  | notFound
  | permissionDenied
  | alreadyExists
  | invalidInput
  | other
deriving DecidableEq, Repr, Inhabited

namespace IoKind

/-- The name of a kind. -/
def name : IoKind → String
  | .notFound => "NotFound"
  | .permissionDenied => "PermissionDenied"
  | .alreadyExists => "AlreadyExists"
  | .invalidInput => "InvalidInput"
  | .other => "Other"

/-- The kind with a given name; any unknown name stands for another kind. -/
def ofName : String → IoKind
  | "NotFound" => .notFound
  | "PermissionDenied" => .permissionDenied
  | "AlreadyExists" => .alreadyExists
  | "InvalidInput" => .invalidInput
  | _ => .other

/-- The kind of an error of the operating system. -/
def ofErrno (n : Errno) : IoKind :=
  if n = 2 then .notFound
  else if n = 1 || n = 13 then .permissionDenied
  else if n = 17 then .alreadyExists
  else if n = 22 then .invalidInput
  else .other

end IoKind

/-- An input or output error. -/
inductive IoError where
  | os (n : Errno)
  | custom (kind : IoKind) (text : String)
deriving DecidableEq, Repr, Inhabited

namespace IoError

/-- The kind of an error. -/
def kind : IoError → IoKind
  | .os n => IoKind.ofErrno n
  | .custom kind _ => kind

/-- The number of an error of the operating system. -/
def errno? : IoError → Option Errno
  | .os n => some n
  | .custom _ _ => none

/-- The error in words. -/
def text : IoError → String
  | .os n => n.text ++ " (os error " ++ toString n ++ ")"
  | .custom _ text => text

end IoError

/-- The cause that a filesystem call reports for an error, `context` saying what the call did. -/
def FsError.ofIo (e : IoError) (context : String) : FsError :=
  match e.kind with
  | .notFound => .notFound context
  | .permissionDenied => .permissionDenied context
  | .alreadyExists => .alreadyExists context
  | .invalidInput => .invalidArgument context
  | .other =>
    match e.errno? with
    | some 18 => .crossDevice
    | some 20 => .notADirectory context
    | some 21 => .isADirectory context
    | some 28 => .outOfSpace
    | some 30 => .readOnly
    | some 39 => .directoryNotEmpty context
    | some 66 => .directoryNotEmpty context
    | _ => .io (context ++ ": " ++ e.text)

end FileProvider
