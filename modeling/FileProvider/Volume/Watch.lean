import FileProvider.Volume.Directory

/-!
# A watcher

A watcher of a directory looks at it from time to time, and publishes at each look how what it sees differs
from what it saw before. It keeps what it saw by id, without an order: what was seen before and what is seen
now are gone through in any order.
-/

set_option autoImplicit false

namespace FileProvider

/-- One look of a watcher. -/
structure Look where
  scan : Except SourceError (List VolumeReport)
  /-- What was published because of it, in order. -/
  published : List VolumeEvent

namespace Look

/-- The volumes that were seen. -/
def seen (look : Look) : List VolumeReport := VolumeDirectory.seen look.scan

/-- What a watcher knows after some looks. -/
def latest (known : List VolumeReport) (looks : List Look) : List VolumeReport :=
  looks.foldl (fun _ look => look.seen) known

/-- What was published at some looks. -/
def allPublished (looks : List Look) : List VolumeEvent := looks.flatMap published

end Look

/-- The looks that a watcher can take one after the other when it knows some volumes. -/
inductive Watched : List VolumeReport → List Look → Prop where
  | nothing (known : List VolumeReport) : Watched known []
  | look {known known' current : List VolumeReport} {scan : Except SourceError (List VolumeReport)}
      {looks : List Look} (hknown : known'.Perm known) (hcurrent : current.Perm (VolumeDirectory.seen scan))
      (h : Watched (VolumeDirectory.seen scan) looks) :
      Watched known (⟨scan, VolumeDirectory.changes known' current⟩ :: looks)

namespace VolumeDirectory

/-- A look that goes through the volumes in the order in which they are listed. -/
def look (d : VolumeDirectory) (known : List VolumeReport) (h : Host) : Look :=
  ⟨d.scan h, changes known (d.visible h)⟩

/-- Such looks at one state of the host after the other. -/
def looks (d : VolumeDirectory) (known : List VolumeReport) : List Host → List Look
  | [] => []
  | h :: later => d.look known h :: d.looks (d.visible h) later

end VolumeDirectory

end FileProvider
