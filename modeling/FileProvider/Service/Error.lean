import FileProvider.Fs.Error

/-!
# Causes of failure of a service operation

A service refuses a request for causes of its own or passes on the filesystem's. Every cause has a
status code, a text, the name of a diagnostic with a hint for the caller, and a tagged written form.
-/

set_option autoImplicit false

namespace FileProvider

/-- The code of success. -/
def StatusCode.success : StatusCode := 0

/-- Why an operation of the service failed. -/
inductive ServiceError where
  | invalidUri (what : String)
  | notFound (what : String)
  | alreadyExists (what : String)
  | invalidOperation (what : String)
  | platform (cause : FsError)
deriving DecidableEq, Repr, Inhabited

namespace ServiceError

/-- The status code that callers see. -/
def code : ServiceError → StatusCode
  | .invalidUri _ => 14300002
  | .notFound _ => 13900002
  | .alreadyExists _ => 13900015
  | .invalidOperation _ => 14300004
  | .platform cause => cause.code

/-- The cause in words. -/
def message : ServiceError → String
  | .invalidUri what => "Invalid uri: " ++ what
  | .notFound what => "Not found: " ++ what
  | .alreadyExists what => "Already exists: " ++ what
  | .invalidOperation what => "Invalid operation: " ++ what
  | .platform cause => "Filesystem error: " ++ cause.message

def tag : ServiceError → String
  | .invalidUri _ => "invalid_uri"
  | .notFound _ => "not_found"
  | .alreadyExists _ => "already_exists"
  | .invalidOperation _ => "invalid_operation"
  | .platform _ => "platform"

/-- The name of the diagnostic. -/
def diagnostic (e : ServiceError) : String := "provider::" ++ e.tag

/-- What the caller may do about it. -/
def help : ServiceError → String
  | .invalidUri _ => "Use file:// or datashare:///<segment>/... with non-empty segments."
  | .notFound _ => "The entry does not exist."
  | .alreadyExists _ => "Choose a different name or delete the existing entry first."
  | .invalidOperation _ => "The request is well formed but cannot be applied to this entry."
  | .platform _ => "The underlying filesystem rejected the call. The code is passed through."

/-- What the written form holds beside the tag. -/
def details : ServiceError → Json
  | .invalidUri what => .str what
  | .notFound what => .str what
  | .alreadyExists what => .str what
  | .invalidOperation what => .str what
  | .platform cause => cause.toJson

def toJson (e : ServiceError) : Json := .obj [("details", e.details), ("error_type", .str e.tag)]

def ofJson (j : Json) : Json.Read ServiceError :=
  j.tagged Json.constant "error_type" "details" fun name details =>
    match name with
    | "invalid_uri" => (Json.content Json.string details).map .invalidUri
    | "not_found" => (Json.content Json.string details).map .notFound
    | "already_exists" => (Json.content Json.string details).map .alreadyExists
    | "invalid_operation" => (Json.content Json.string details).map .invalidOperation
    | "platform" => (Json.content (FsError.read j.innerTag) details).map .platform
    | _ => .error .malformed

end ServiceError

end FileProvider
