import FileProvider.Uri.Addressing
import FileProvider.Volume.Record

/-!
# Roots

A root is a place from which entries can be reached: the primary storage, and every mounted volume.
-/

set_option autoImplicit false

namespace FileProvider

/-- The device behind a root. -/
inductive Device where
  | sharedDisk
  | sd
  | externalUsb
deriving DecidableEq, Repr, Inhabited

namespace Device

/-- The name of a device, which is also its written form. -/
def name : Device → String
  | .sharedDisk => "DEVICE_SHARED_DISK"
  | .sd => "DEVICE_SD"
  | .externalUsb => "DEVICE_EXTERNAL_USB"

/-- The device of a medium. -/
def ofMedium : Medium → Device
  | .sd => .sd
  | .usb => .externalUsb

def toJson (d : Device) : Json := .str d.name

def ofJson (j : Json) : Json.Read Device := do
  match ← j.constant with
  | "DEVICE_SHARED_DISK" => .ok .sharedDisk
  | "DEVICE_SD" => .ok .sd
  | "DEVICE_EXTERNAL_USB" => .ok .externalUsb
  | _ => .error .malformed

end Device

/-- A place from which entries can be reached. -/
structure Root where
  uri : String
  displayName : String
  device : Device
  flags : UInt32
deriving DecidableEq, Repr, Inhabited

namespace Root

/-- Where the primary storage is mounted. -/
def primaryPath : String := "/data/storage/el1/bundle/storage_daemon"

/-- The root of the primary storage for the owner `bundle`; it can be read and written. -/
def primary (bundle : String) : Root where
  uri := Uri.fileScheme ++ Uri.separator ++ bundle ++ primaryPath
  displayName := "shared_disk"
  device := .sharedDisk
  flags := 0x1 ||| 0x2

/-- The root of a volume. -/
def ofVolume (v : Volume) : Root where
  uri := v.uri
  displayName := v.displayName
  device := Device.ofMedium v.medium
  flags := v.capabilities.bits

/-- All roots: the primary one, then one per volume in the order of the list. -/
def all (bundle : String) (volumes : List Volume) : List Root :=
  primary bundle :: volumes.map ofVolume

/-- Whether a URI begins with the URI of this root. -/
def covers (r : Root) (uri : String) : Bool := r.uri.toList.isPrefixOf uri.toList

/-- Whether no single root covers both URIs. -/
def separates (roots : List Root) (source target : String) : Bool :=
  !roots.any fun r => r.covers source && r.covers target

def toJson (r : Root) : Json :=
  .obj [("device_flags", .ofWord32 r.flags), ("device_type", r.device.toJson),
    ("display_name", .str r.displayName), ("uri", .str r.uri)]

def ofJson (j : Json) : Json.Read Root :=
  j.record ["uri", "display_name", "device_type", "device_flags"] false fun fields => do
    let uri ← Json.required fields "uri" Json.string
    let displayName ← Json.required fields "display_name" Json.string
    let device ← Json.required fields "device_type" Device.ofJson
    let flags ← Json.required fields "device_flags" Json.word32
    .ok ⟨uri, displayName, device, flags⟩

end Root

end FileProvider
