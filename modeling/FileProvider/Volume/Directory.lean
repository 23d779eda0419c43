import FileProvider.Host.System
import FileProvider.Text.Class
import FileProvider.Text.Search
import FileProvider.Volume.Hub

/-!
# A directory of the host as a source of volumes

Every subdirectory of such a directory is a mounted volume: its name is the id, and the file `.uuid`
in it, if it can be read as text, holds the UUID. Nothing tells the source when that changes, so it
looks from time to time and publishes how what it sees differs from what it knew. A directory that
cannot be read holds no volumes.
-/

set_option autoImplicit false

namespace FileProvider

/-- A directory of the host whose subdirectories are the mounted volumes. -/
structure VolumeDirectory where
  /-- The directory; a relative path is seen from the host's root. -/
  hostDir : Path
  /-- The path below which the volumes are mounted, with or without slashes at its end. -/
  mountPrefix : String
deriving DecidableEq, Repr, Inhabited

namespace VolumeDirectory

/-- The name of the file that holds the UUID of a volume. -/
def uuidFile : String := ".uuid"

/-- The text of a file's content without the white space around it, if it is text. -/
def trimmedText? (data : Bytes) : Option String :=
  (String.fromUTF8? ⟨data.toArray⟩).map fun s => String.ofList (Text.trim Text.isBlank s.toList)

/-- The UUID of the volume in a directory of the host; empty if it cannot be read. -/
def uuidOf (h : Host) (l : Location) : String :=
  match ((Host.readFile (l ++ [uuidFile])).outcome h).1 with
  | .ok data => (trimmedText? data).getD ""
  | .error _ => ""

/-- Where the volume with an id is mounted. -/
def mountPath (d : VolumeDirectory) (id : String) : String :=
  String.ofList (Text.chopSlashes d.mountPrefix.toList) ++ "/" ++ id

/-- The report on the volume with an id. -/
def report (d : VolumeDirectory) (h : Host) (id : String) : VolumeReport :=
  ⟨id, uuidOf h (d.hostDir.location ++ [id]), d.mountPath id⟩

/-- What is mounted, by id; links to directories do not count, nor does what has a name that is no text. -/
@[irreducible]
def scan (d : VolumeDirectory) (h : Host) : Except SourceError (List VolumeReport) :=
  match ((Host.readDir d.hostDir.location).outcome h).1 with
  | .ok entries =>
    .ok ((entries.filter fun entry => entry.isDir && Name.isText entry.name).map fun entry =>
      d.report h entry.name)
  | .error e => .error (.unavailable (d.hostDir.text ++ ": " ++ e.text))

/-- The volumes that a scan shows; none if it failed. -/
def seen : Except SourceError (List VolumeReport) → List VolumeReport
  | .ok reports => reports
  | .error _ => []

/-- What is mounted as far as it can be seen. -/
def visible (d : VolumeDirectory) (h : Host) : List VolumeReport := seen (d.scan h)

/-- How what is mounted now differs from what was known: first the volumes that are new or reported
otherwise, then those that are gone. -/
def changes (known current : List VolumeReport) : List VolumeEvent :=
  ((current.filter fun r => !known.contains r).map .mounted)
    ++ ((known.filter fun r => !current.any (·.id = r.id)).map fun r => .unmounted r.id)

/-- Looks again: publishes the changes, and gives what is known from now on. -/
def poll (d : VolumeDirectory) (h : Host) (known : List VolumeReport) (hub : VolumeHub) :
    List VolumeReport × VolumeHub :=
  let current := d.visible h
  (current, ((changes known current).foldl (fun hub e => hub.publish e) hub).settle)

end VolumeDirectory

end FileProvider
