import FileProvider.Json
import FileProvider.Uri.Strict

/-!
# Written forms of URIs and of their faults

A URI is written as a record of its three parts, a fault as a tag with its detail.
-/

set_option autoImplicit false

namespace FileProvider.Uri

/-- Writes a URI. -/
def toJson (u : Uri) : Json :=
  .obj [("authority", .str u.authority), ("path", .str u.path), ("scheme", .str u.scheme)]

/-- Reads a URI. -/
def ofJson (j : Json) : Json.Read Uri :=
  j.record ["scheme", "authority", "path"] false fun fields => do
    let scheme ← Json.required fields "scheme" Json.string
    let authority ← Json.required fields "authority" Json.string
    let path ← Json.required fields "path" Json.string
    .ok ⟨scheme, authority, path⟩

def Fault.toJson : Fault → Json
  | .missingScheme => .obj [("error", .str "missing_scheme")]
  | .invalidScheme scheme => .obj [("details", .str scheme), ("error", .str "invalid_scheme")]
  | .illegalCharacter c =>
    .obj [("details", .str (String.ofList [c])), ("error", .str "illegal_character")]

def Fault.ofJson (j : Json) : Json.Read Fault :=
  j.tagged Json.constant "error" "details" fun name details =>
    match name with
    | "missing_scheme" => Json.noContent .missingScheme details
    | "invalid_scheme" => (Json.content Json.string details).map .invalidScheme
    | "illegal_character" => (Json.content Json.char details).map .illegalCharacter
    | _ => .error .malformed

end FileProvider.Uri
