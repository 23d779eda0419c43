import FileProvider.Json

/-!
# Volumes as they are reported and as they are listed

A source reports a volume by its id, its filesystem's UUID and its mount path. `Volume.ofReport` is
the record that a table keeps for such a report: every removable volume gets the same capabilities.
-/

set_option autoImplicit false

namespace FileProvider

/-- A volume as a source reports it. -/
structure VolumeReport where
  id : String
  /-- The UUID of its filesystem; empty if unknown. -/
  uuid : String
  /-- Where it is mounted inside the provider's filesystem. -/
  path : String
deriving DecidableEq, Repr, Inhabited

namespace VolumeReport

def toJson (r : VolumeReport) : Json :=
  .obj [("id", .str r.id), ("path", .str r.path), ("uuid", .str r.uuid)]

def ofJson (j : Json) : Json.Read VolumeReport :=
  j.record ["id", "uuid", "path"] false fun fields => do
    let id ← Json.required fields "id" Json.string
    let uuid ← Json.required fields "uuid" Json.string
    let path ← Json.required fields "path" Json.string
    .ok ⟨id, uuid, path⟩

end VolumeReport

/-- A set of capabilities, one bit each. -/
structure Capabilities where
  bits : UInt32
deriving DecidableEq, Repr, Inhabited

namespace Capabilities

def thumbnail : Capabilities := ⟨0x1⟩

def write : Capabilities := ⟨0x2⟩

def read : Capabilities := ⟨0x4⟩

def delete : Capabilities := ⟨0x8⟩

def rename : Capabilities := ⟨0x10⟩

def move : Capabilities := ⟨0x20⟩

def copy : Capabilities := ⟨0x40⟩

/-- Entries can be removed from a directory. -/
def remove : Capabilities := ⟨0x80⟩

/-- Entries can be created in directories. -/
def create : Capabilities := ⟨0x100⟩

/-- Directories are best shown as a grid. -/
def prefersGrid : Capabilities := ⟨0x200⟩

/-- Directories are best sorted by the last change. -/
def prefersLastModified : Capabilities := ⟨0x400⟩

/-- The capabilities of either set. -/
def union (a b : Capabilities) : Capabilities := ⟨a.bits ||| b.bits⟩

/-- Whether every capability of `b` is one of `a`. -/
def contains (a b : Capabilities) : Bool := a.bits &&& b.bits == b.bits

/-- What every removable volume can do. -/
def removable : Capabilities :=
  [write, delete, rename, copy, move, remove, create, prefersLastModified].foldl union ⟨0⟩

end Capabilities

/-- The media of a removable volume. -/
inductive Medium where
  | sd
  | usb
deriving DecidableEq, Repr, Inhabited

namespace Medium

/-- The name of a medium, which is also its written form. -/
def name : Medium → String
  | .sd => "SD"
  | .usb => "USB"

def toJson (m : Medium) : Json := .str m.name

def ofJson (j : Json) : Json.Read Medium := do
  match ← j.constant with
  | "SD" => .ok .sd
  | "USB" => .ok .usb
  | _ => .error .malformed

end Medium

/-- A mounted volume as it is listed. -/
structure Volume where
  id : String
  uuid : String
  path : String
  uri : String
  displayName : String
  deviceId : String
  capabilities : Capabilities
  medium : Medium
deriving DecidableEq, Repr, Inhabited

namespace Volume

/-- The scheme of volume roots. -/
def scheme : String := "fileAccess"

/-- The URI of a volume root. -/
def rootUri (id path : String) : String := scheme ++ "://" ++ id ++ path

/-- The record kept for a report. -/
def ofReport (r : VolumeReport) : Volume where
  id := r.id
  uuid := r.uuid
  path := r.path
  uri := rootUri "" r.path
  displayName := r.id
  deviceId := ""
  capabilities := .removable
  medium := .sd

def toJson (v : Volume) : Json :=
  .obj [("device_id", .str v.deviceId), ("display_name", .str v.displayName),
    ("flags", .ofWord32 v.capabilities.bits), ("fs_uuid", .str v.uuid), ("path", .str v.path),
    ("uri", .str v.uri), ("volume_id", .str v.id), ("volume_type", v.medium.toJson)]

/-- The fields of a volume in declared order. -/
def declared : List String :=
  ["volume_id", "fs_uuid", "path", "uri", "display_name", "device_id", "flags", "volume_type"]

def ofJson (j : Json) : Json.Read Volume :=
  j.record declared false fun fields => do
    let id ← Json.required fields "volume_id" Json.string
    let uuid ← Json.required fields "fs_uuid" Json.string
    let path ← Json.required fields "path" Json.string
    let uri ← Json.required fields "uri" Json.string
    let displayName ← Json.required fields "display_name" Json.string
    let deviceId ← Json.required fields "device_id" Json.string
    let bits ← Json.required fields "flags" Json.word32
    let medium ← Json.required fields "volume_type" Medium.ofJson
    .ok ⟨id, uuid, path, uri, displayName, deviceId, ⟨bits⟩, medium⟩

end Volume

end FileProvider
