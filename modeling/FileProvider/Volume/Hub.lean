import FileProvider.Volume.Table

/-!
# From mount notifications to the table

A channel is a source that is told what is mounted. What it publishes goes to the inbox of every
listener and of every relay that was connected before; a relay applies what arrives in its inbox to
the table, in order, until it is stopped or its inbox is cut off from the channel and empty. The hub
holds the channel, the listeners, the relays and the table.

An inbox behaves as an unbounded channel of the library `flume` does: what is sent arrives in the order of
sending, nothing is lost while the receiver is there, and once the sender is dropped the receiver reads what
is left and then learns that nothing more will come. A relay is a task on the `tokio` runtime: it goes on
whenever it is scheduled, and aborting it keeps it from ever going on.
-/

set_option autoImplicit false

namespace FileProvider

/-- What has arrived for one reader: the receiving end of a channel. -/
structure Inbox where
  /-- The events that were not read yet, in order. -/
  pending : List VolumeEvent
  /-- Whether more can arrive. -/
  connected : Bool
deriving DecidableEq, Repr, Inhabited

namespace Inbox

/-- An empty inbox that is connected to the channel. -/
def fresh : Inbox := ⟨[], true⟩

/-- The inbox after an event was published. -/
def receive (e : VolumeEvent) (i : Inbox) : Inbox :=
  if i.connected then { i with pending := i.pending ++ [e] } else i

/-- The inbox after it was cut off from the channel. -/
def cutOff (i : Inbox) : Inbox := { i with connected := false }

/-- The inbox after everything was read. -/
def emptied (i : Inbox) : Inbox := { i with pending := [] }

end Inbox

/-- A reader that applies what arrives to the table: a task that can be stopped. -/
structure Relay where
  inbox : Inbox
  running : Bool
deriving DecidableEq, Repr, Inhabited

namespace Relay

/-- Whether a relay will never apply anything more. -/
def finished (r : Relay) : Bool :=
  !r.running || (r.inbox.pending.isEmpty && !r.inbox.connected)

/-- The relay after it was stopped. -/
def stop (r : Relay) : Relay := { r with running := false }

/-- Applies the first event that has arrived, if the relay is running and there is one. -/
def step (r : Relay) (t : VolumeTable) : Relay × VolumeTable :=
  match r.running, r.inbox.pending with
  | true, e :: rest => ({ r with inbox := { r.inbox with pending := rest } }, t.apply e)
  | _, _ => (r, t)

/-- Applies everything that has arrived. -/
def drain (r : Relay) (t : VolumeTable) : Relay × VolumeTable :=
  if r.running then ({ r with inbox := r.inbox.emptied }, t.applyAll r.inbox.pending) else (r, t)

end Relay

/-- A channel with its readers and the table that they keep. -/
structure VolumeHub where
  /-- The mounted volumes as the relays know them. -/
  table : VolumeTable
  /-- The mounted volumes as the channel was told. -/
  mounted : List VolumeReport
  /-- The inboxes of the listeners; those that were dropped have none. -/
  listeners : List (Option Inbox)
  /-- The relays, the first one started at the head. -/
  relays : List Relay
deriving DecidableEq, Repr, Inhabited

namespace VolumeHub

/-- The hub without volumes and readers. -/
def empty : VolumeHub := ⟨[], [], [], []⟩

/-- Changes the table. -/
def withTable (f : VolumeTable → VolumeTable) (h : VolumeHub) : VolumeHub :=
  { h with table := f h.table }

/-- Changes what the channel was told. -/
def withMounted (f : List VolumeReport → List VolumeReport) (h : VolumeHub) : VolumeHub :=
  { h with mounted := f h.mounted }

/-- Changes every inbox. -/
def withInboxes (f : Inbox → Inbox) (h : VolumeHub) : VolumeHub :=
  { h with
    listeners := h.listeners.map (Option.map f)
    relays := h.relays.map fun r => { r with inbox := f r.inbox } }

/-- Lets each relay in turn apply everything that has arrived for it. -/
def drainAll : List Relay → VolumeTable → List Relay × VolumeTable
  | [], t => ([], t)
  | r :: rest, t =>
    let (r', t') := r.drain t
    let (rest', t'') := drainAll rest t'
    (r' :: rest', t'')

/-- The hub when every relay has done all it can. -/
def settle (h : VolumeHub) : VolumeHub :=
  let (relays, table) := drainAll h.relays h.table
  { h with relays := relays, table := table }

/-- Sends an event to every inbox that is connected. -/
def publish (e : VolumeEvent) (h : VolumeHub) : VolumeHub := h.withInboxes (Inbox.receive e)

/-- Records a mounted volume, behind the others, and publishes that. -/
def mount (r : VolumeReport) (h : VolumeHub) : VolumeHub :=
  (h.withMounted fun ms => ms.filter (fun m => m.id ≠ r.id) ++ [r]).publish (.mounted r)

/-- Forgets a volume and publishes that it is not mounted. -/
def unmount (id : String) (h : VolumeHub) : VolumeHub :=
  (h.withMounted fun ms => ms.filter fun m => m.id ≠ id).publish (.unmounted id)

/-- Replaces the channel by a new one: no volume is mounted and every reader is cut off. -/
def reset (h : VolumeHub) : VolumeHub := (h.withMounted fun _ => []).withInboxes Inbox.cutOff

/-- Adds a listener. -/
def listen (h : VolumeHub) : VolumeHub := { h with listeners := h.listeners ++ [some .fresh] }

/-- What has arrived for a listener, and whether its channel is gone; a dropped listener hears
nothing. -/
def heard (i : Nat) (h : VolumeHub) : List VolumeEvent × Bool :=
  match h.listeners[i]? with
  | some (some inbox) => (inbox.pending, !inbox.connected)
  | _ => ([], true)

/-- Forgets what has arrived for a listener. -/
def clear (i : Nat) (h : VolumeHub) : VolumeHub :=
  { h with listeners := h.listeners.modify i (Option.map Inbox.emptied) }

/-- Drops a listener. -/
def drop (i : Nat) (h : VolumeHub) : VolumeHub :=
  { h with listeners := h.listeners.modify i fun _ => none }

/-- Adds a relay with a given inbox. -/
def relay (inbox : Inbox) (h : VolumeHub) : VolumeHub :=
  { h with relays := h.relays ++ [⟨inbox, true⟩] }

/-- Connects a relay, takes over what an enumeration gives, and lets the relay run. -/
def start (enumeration : Except SourceError (List VolumeReport)) (h : VolumeHub) : VolumeHub :=
  ((h.relay .fresh).withTable (·.enumerate enumeration)).settle

/-- Stops a relay. -/
def stop (i : Nat) (h : VolumeHub) : VolumeHub := { h with relays := h.relays.modify i Relay.stop }

/-- Whether a relay will never apply anything more; one that does not exist will not. -/
def finished (i : Nat) (h : VolumeHub) : Bool :=
  match h.relays[i]? with
  | some r => r.finished
  | none => true

/-- Stops every relay and forgets the volumes in the table. -/
def shutdown (h : VolumeHub) : VolumeHub := { h with table := [], relays := h.relays.map .stop }

end VolumeHub

end FileProvider
