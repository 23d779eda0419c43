import FileProvider.Json
import FileProvider.Path.Basic
import FileProvider.Uri.Addressing

/-!
# Settings

The settings of a provider come from environment variables or from a record. Whatever is not given
has a default; from the environment, the volume directory then lies below the storage directory that
was given, and a poll interval that is no positive word of 64 bits is left out of account. A variable
that is no text counts as not given. Directories may have paths that are no text, but a record of
settings holds texts alone, so such settings cannot be written.
-/

set_option autoImplicit false

namespace FileProvider

/-- The settings of a provider. -/
structure Settings where
  /-- The host directory that holds the entries. -/
  storagePath : Path
  /-- The host directory whose subdirectories are volumes. -/
  volumeDir : Path
  /-- The bundle that owns the entries. -/
  bundleName : String
  /-- Whether the log is written as JSON. -/
  traceJson : Bool
  /-- How often volumes are looked for, in milliseconds. -/
  pollInterval : UInt64
deriving DecidableEq, Repr, Inhabited

namespace Settings

/-- The storage directory when none is given. -/
def defaultStorage : Path := ⟨"/tmp/file-access-storage"⟩

/-- The settings for a storage directory, everything else being defaulted. -/
def ofStorage (storagePath : Path) : Settings where
  storagePath := storagePath
  volumeDir := storagePath.join "mnt"
  bundleName := Uri.defaultBundle
  traceJson := false
  pollInterval := 2000

/-- The settings when nothing is given. -/
def default : Settings := ofStorage defaultStorage

/-- The value of a decimal digit. -/
def digit? (c : Char) : Option Nat := if c.isDigit then some (c.toNat - '0'.toNat) else none

/-- The number that decimal digits write, at least one of them. -/
def number? (digits : List Char) : Option Nat :=
  if digits.isEmpty then none
  else (digits.mapM digit?).map fun ds => ds.foldl (fun n d => 10 * n + d) 0

/-- Reads an unsigned word of 64 bits: decimal digits, a plus sign before them being allowed. -/
def word64? (s : String) : Option UInt64 := do
  let digits := match s.toList with
    | '+' :: rest => rest
    | chars => chars
  let n ← number? digits
  if n < UInt64.size then some (UInt64.ofNat n) else none

/-- The poll interval that a text gives: a positive one, or none. -/
def interval? (s : String) : Option UInt64 := do
  let ms ← word64? s
  if ms = 0 then none else some ms

/-- The settings that environment variables give. -/
def ofEnvironment (given : String → Option String) : Settings :=
  let path (key : String) : Option Path := (given key).map .ofText
  let base := ofStorage ((path "FILEACCESS_STORAGE_PATH").getD defaultStorage)
  { base with
    volumeDir := (path "FILEACCESS_VOLUME_DIR").getD base.volumeDir
    bundleName := (given "FILEACCESS_BUNDLE_NAME").getD base.bundleName
    traceJson := match given "FILEACCESS_TRACE_JSON" with
      | some s => s = "1" || s = "true"
      | none => base.traceJson
    pollInterval :=
      ((given "FILEACCESS_POLL_INTERVAL_MS").bind interval?).getD base.pollInterval }

/-- Whole seconds of the poll interval. -/
def pollSeconds (s : Settings) : Nat := s.pollInterval.toNat / 1000

/-- What the poll interval has beyond whole seconds, in nanoseconds. -/
def pollNanoseconds (s : Settings) : Nat := s.pollInterval.toNat % 1000 * 1000000

/-- Writes settings, if the paths of both directories are text. -/
def toJson? (s : Settings) : Option Json := do
  let storagePath ← s.storagePath.text?
  let volumeDir ← s.volumeDir.text?
  some (.obj [("bundle_name", .str s.bundleName), ("poll_interval_ms", .ofWord64 s.pollInterval),
    ("storage_path", .str storagePath), ("trace_json", .bool s.traceJson), ("volume_dir", .str volumeDir)])

/-- The written form of settings, and nothing where there is none. -/
def toJson (s : Settings) : Json := s.toJson?.getD .null

/-- Reads the path of a directory. -/
def pathOfJson (j : Json) : Json.Read Path := do .ok (.ofText (← j.string))

/-- The fields of settings in declared order. -/
def declared : List String :=
  ["storage_path", "volume_dir", "bundle_name", "trace_json", "poll_interval_ms"]

/-- Reads settings; a field that is absent has the value that it has when nothing is given. -/
def ofJson (j : Json) : Json.Read Settings :=
  j.record declared false fun fields => do
    let storagePath ← Json.optional fields "storage_path" pathOfJson default.storagePath
    let volumeDir ← Json.optional fields "volume_dir" pathOfJson default.volumeDir
    let bundleName ← Json.optional fields "bundle_name" Json.string default.bundleName
    let traceJson ← Json.optional fields "trace_json" Json.boolean default.traceJson
    let pollInterval ← Json.optional fields "poll_interval_ms" Json.word64 default.pollInterval
    .ok ⟨storagePath, volumeDir, bundleName, traceJson, pollInterval⟩

end Settings

end FileProvider
