import FileProvider.Volume.Event

/-!
# The table of mounted volumes

A table lists the mounted volumes by id. A volume that is added again keeps its place; any event
other than a mount removes its volume.
-/

set_option autoImplicit false

namespace FileProvider

/-- The mounted volumes, no two with the same id. -/
abbrev VolumeTable : Type := List Volume

namespace VolumeTable

/-- The volume with an id. -/
def get? (t : VolumeTable) (id : String) : Option Volume := t.find? fun v => v.id = id

/-- Adds a volume: in place of the one with its id, or behind the others. -/
def add (t : VolumeTable) (v : Volume) : VolumeTable :=
  if (t.get? v.id).isSome then t.map fun w => if w.id = v.id then v else w else t ++ [v]

/-- Removes every volume with an id, and says how many were removed. -/
def removal (t : VolumeTable) (id : String) : Nat × VolumeTable :=
  (t.countP fun v => v.id = id, t.filter fun v => v.id ≠ id)

/-- The table after the volume with an id was removed. -/
def remove (t : VolumeTable) (id : String) : VolumeTable := (t.removal id).2

/-- How many volumes go when those with an id are removed. -/
def count (t : VolumeTable) (id : String) : Nat := (t.removal id).1

/-- The table after an event. -/
def apply (t : VolumeTable) : VolumeEvent → VolumeTable
  | .mounted report => t.add (Volume.ofReport report)
  | .unmounted id => t.remove id
  | .other _ id => t.remove id

/-- The table after several events. -/
def applyAll (t : VolumeTable) (events : List VolumeEvent) : VolumeTable := events.foldl apply t

/-- The table after an enumeration; a failed one changes nothing. -/
def enumerate (t : VolumeTable) : Except SourceError (List VolumeReport) → VolumeTable
  | .ok reports => reports.foldl (fun t r => t.add (Volume.ofReport r)) t
  | .error _ => t

/-- What can be done to a table. -/
inductive Operation where
  | add (v : Volume)
  | remove (id : String)
  | apply (e : VolumeEvent)
  /-- An enumeration is taken over. -/
  | enumerate (found : Except SourceError (List VolumeReport))
  /-- Every volume is forgotten. -/
  | clear

/-- The table after an operation. -/
def operate (t : VolumeTable) : Operation → VolumeTable
  | .add v => t.add v
  | .remove id => t.remove id
  | .apply e => t.apply e
  | .enumerate found => t.enumerate found
  | .clear => []

/-- The tables that can come about. -/
inductive Reachable : VolumeTable → Prop where
  | empty : Reachable []
  | operate {t : VolumeTable} (h : Reachable t) (o : Operation) : Reachable (t.operate o)

end VolumeTable

end FileProvider
