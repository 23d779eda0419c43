import FileProvider.Volume.Hub

/-!
# What can be asked of a hub

The operations on a hub as values, so that a sequence of them can be followed: those on the table itself, those on
the channel and its listeners, and those on relays. Everything that an operation causes is done before the next one.
-/

set_option autoImplicit false

namespace FileProvider

namespace VolumeTable

/-- The table after several operations. -/
def operateAll (t : VolumeTable) (os : List Operation) : VolumeTable := os.foldl operate t

end VolumeTable

namespace VolumeHub

/-- An operation on the table; when every volume is forgotten, every relay is stopped as well. -/
def operate (o : VolumeTable.Operation) (h : VolumeHub) : VolumeHub :=
  match o with
  | .clear => h.shutdown
  | o => h.withTable (·.operate o)

/-- Several operations on the table. -/
def operateAll (os : List VolumeTable.Operation) (h : VolumeHub) : VolumeHub :=
  os.foldl (fun h o => h.operate o) h

/-- Lets a listener go and gives what it has heard to a relay. -/
def adopt (i : Nat) (h : VolumeHub) : VolumeHub :=
  match h.listeners[i]? with
  | some (some inbox) => ((h.drop i).relay inbox).settle
  | _ => h

end VolumeHub

/-- What can be asked of a hub. -/
inductive VolumeCall where
  /-- Something is done to the table. -/
  | operate (o : VolumeTable.Operation)
  | mount (r : VolumeReport)
  | unmount (id : String)
  /-- An event is published that the channel does not keep. -/
  | notify (e : VolumeEvent)
  /-- The channel is replaced by a new one. -/
  | reset
  | listen
  /-- A listener reads what has arrived. -/
  | clear (i : Nat)
  | drop (i : Nat)
  /-- A relay is started on what an enumeration gives. -/
  | start (found : Except SourceError (List VolumeReport))
  /-- A relay is connected without an enumeration. -/
  | connect
  /-- A listener's inbox is given to a relay. -/
  | adopt (i : Nat)
  /-- A relay gets some events, and nothing after them. -/
  | feed (events : List VolumeEvent)
  | stop (i : Nat)

namespace VolumeHub

/-- Answers a call. -/
def perform (h : VolumeHub) : VolumeCall → VolumeHub
  | .operate o => h.operate o
  | .mount r => (h.mount r).settle
  | .unmount id => (h.unmount id).settle
  | .notify e => (h.publish e).settle
  | .reset => h.reset.settle
  | .listen => h.listen
  | .clear i => h.clear i
  | .drop i => h.drop i
  | .start found => h.start found
  | .connect => (h.relay .fresh).settle
  | .adopt i => h.adopt i
  | .feed events => (h.relay ⟨events, false⟩).settle
  | .stop i => h.stop i

/-- Answers several calls, one after the other. -/
def performAll (h : VolumeHub) (calls : List VolumeCall) : VolumeHub := calls.foldl perform h

end VolumeHub

end FileProvider
