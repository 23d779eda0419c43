import FileProvider.Volume.Record

/-!
# Mount notifications and failures of volume sources

A notification says that a volume was mounted or unmounted, or that something else happened to it.
A failed enumeration says whether the source could not be reached or broke off.
-/

set_option autoImplicit false

namespace FileProvider

/-- A change in what is mounted. -/
inductive VolumeEvent where
  | mounted (report : VolumeReport)
  | unmounted (id : String)
  /-- The volume changed in another way, after which it cannot be used. -/
  | other (kind id : String)
deriving DecidableEq, Repr, Inhabited

namespace VolumeEvent

/-- The volume that an event is about. -/
def volumeId : VolumeEvent → String
  | .mounted report => report.id
  | .unmounted id => id
  | .other _ id => id

/-- Writes an event: its fields beside the tag `event`. -/
def toJson : VolumeEvent → Json
  | .mounted r =>
    .obj [("event", .str "mounted"), ("id", .str r.id), ("path", .str r.path),
      ("uuid", .str r.uuid)]
  | .unmounted id => .obj [("event", .str "unmounted"), ("id", .str id)]
  | .other kind id => .obj [("event", .str "other"), ("id", .str id), ("kind", .str kind)]

/-- Takes the tag of an event from among its fields; in an array it comes first. -/
def takeTag : Json → Json.Read (String × Json)
  | .obj fields => do
    let tag ← Json.required fields "event" Json.string
    .ok (tag, .obj (fields.filter fun field => field.1 != "event"))
  | .arr (tag :: rest) => do .ok (← tag.string, .arr rest)
  | _ => .error .malformed

def ofJson (j : Json) : Json.Read VolumeEvent := do
  let (tag, body) ← takeTag j
  match tag with
  | "mounted" => (VolumeReport.ofJson body).map .mounted
  | "unmounted" =>
    body.record ["id"] false fun fields => do
      .ok (.unmounted (← Json.required fields "id" Json.string))
  | "other" =>
    body.record ["kind", "id"] false fun fields => do
      let kind ← Json.required fields "kind" Json.string
      let id ← Json.required fields "id" Json.string
      .ok (.other kind id)
  | _ => .error .malformed

end VolumeEvent

/-- Why a source could not say what is mounted. -/
inductive SourceError where
  | enumerationFailed (what : String)
  | unavailable (what : String)
deriving DecidableEq, Repr, Inhabited

namespace SourceError

/-- The failure in words. -/
def message : SourceError → String
  | .enumerationFailed what => "Volume enumeration failed: " ++ what
  | .unavailable what => "Volume source unavailable: " ++ what

/-- The tag of the written form. -/
def tag : SourceError → String
  | .enumerationFailed _ => "enumeration_failed"
  | .unavailable _ => "unavailable"

/-- What the written form holds beside the tag. -/
def details : SourceError → String
  | .enumerationFailed what => what
  | .unavailable what => what

def toJson (e : SourceError) : Json := .obj [("details", .str e.details), ("error", .str e.tag)]

def ofJson (j : Json) : Json.Read SourceError :=
  j.tagged Json.constant "error" "details" fun name details =>
    match name with
    | "enumeration_failed" => (Json.content Json.string details).map .enumerationFailed
    | "unavailable" => (Json.content Json.string details).map .unavailable
    | _ => .error .malformed

end SourceError

end FileProvider
