import FileProvider.Volume.Background
import FileProvider.Volume.Call

/-!
# Senders and tasks

A channel does not see the inboxes that it serves, only a sender for each of them. An event goes through every
sender; one whose reader is gone is found out when it is used, and is not kept. A table does not see the relays
and enumerations that work on it either, only a handle of each of these tasks: a shutdown cancels those that it
has, and whenever a handle is added, those of finished tasks are let go.

A wired hub is a hub at work with the senders of its channel and the handles of its table. Nothing that a call
causes is done at once: it is left to the turns of the tasks.
-/

set_option autoImplicit false

namespace FileProvider

/-- Who reads an inbox. -/
inductive Reader where
  | listener (i : Nat)
  | relay (i : Nat)
deriving DecidableEq, Repr

/-- Who reads an inbox when a relay takes over that of a listener. -/
def Reader.handOver (listener relay : Nat) (reader : Reader) : Reader :=
  if reader = .listener listener then .relay relay else reader

/-- What works in the background. -/
inductive Task where
  | relay (i : Nat)
  | enumeration (i : Nat)
deriving DecidableEq, Repr

/-- The inbox with one more event. -/
def Inbox.put (e : VolumeEvent) (i : Inbox) : Inbox := { i with pending := i.pending ++ [e] }

namespace VolumeHub

/-- The inbox of a reader that is still there: a listener that was not dropped, a relay that was not stopped. -/
def inbox? (h : VolumeHub) : Reader → Option Inbox
  | .listener i => h.listeners[i]?.join
  | .relay i => (h.relays[i]?.filter Relay.running).map Relay.inbox

/-- Changes the inbox of one reader. -/
def atInbox (f : Inbox → Inbox) (h : VolumeHub) : Reader → VolumeHub
  | .listener i => { h with listeners := h.listeners.modify i (Option.map f) }
  | .relay i => { h with relays := h.relays.modify i fun r => { r with inbox := f r.inbox } }

/-- Changes the inboxes of several readers. -/
def atInboxes (f : Inbox → Inbox) (readers : List Reader) (h : VolumeHub) : VolumeHub :=
  readers.foldl (fun h reader => h.atInbox f reader) h

/-- Lets one relay apply the first event that has arrived for it. -/
def advance (i : Nat) (h : VolumeHub) : VolumeHub :=
  match h.relays[i]? with
  | some r => { h with table := (r.step h.table).2, relays := h.relays.set i (r.step h.table).1 }
  | none => h

end VolumeHub

/-- A hub at work, with what its channel and its table hold of their readers and tasks. -/
structure WiredHub extends BusyHub where
  /-- The inboxes that the channel sends to, the one connected first at the head. -/
  senders : List Reader
  /-- The tasks that the table can cancel. -/
  tasks : List Task
deriving DecidableEq, Repr

namespace WiredHub

/-- The hub without volumes, readers and tasks. -/
def empty : WiredHub := ⟨⟨.empty, []⟩, [], []⟩

/-- Changes the hub itself. -/
def withHub (f : VolumeHub → VolumeHub) (w : WiredHub) : WiredHub := { w with hub := f w.hub }

/-! ## The channel -/

/-- Sends an event through every sender, and keeps those whose reader is there. -/
def publish (e : VolumeEvent) (w : WiredHub) : WiredHub :=
  let live := w.senders.filter fun reader => (w.hub.inbox? reader).isSome
  { w with hub := w.hub.atInboxes (.put e) live, senders := live }

/-- Connects an inbox to the channel. -/
def subscribe (reader : Reader) (w : WiredHub) : WiredHub := { w with senders := w.senders ++ [reader] }

def mount (r : VolumeReport) (w : WiredHub) : WiredHub :=
  (w.withHub (·.withMounted fun ms => ms.filter (fun m => m.id ≠ r.id) ++ [r])).publish (.mounted r)

def unmount (id : String) (w : WiredHub) : WiredHub :=
  (w.withHub (·.withMounted fun ms => ms.filter fun m => m.id ≠ id)).publish (.unmounted id)

/-- Replaces the channel by a new one; the senders of the old one are gone, and so the inboxes are cut off. -/
def reset (w : WiredHub) : WiredHub :=
  { w with hub := (w.hub.withMounted fun _ => []).atInboxes .cutOff w.senders, senders := [] }

def listen (w : WiredHub) : WiredHub :=
  (w.withHub (·.listen)).subscribe (.listener w.hub.listeners.length)

/-! ## The tasks -/

/-- Whether a task is finished. -/
def isOver (w : WiredHub) : Task → Bool
  | .relay i => w.hub.finished i
  | .enumeration i => (w.adding[i]?.getD []).isEmpty

/-- Lets the handles of finished tasks go and takes one more. -/
def track (task : Task) (w : WiredHub) : WiredHub :=
  { w with tasks := w.tasks.filter (fun task => !w.isOver task) ++ [task] }

/-- Cancels a task. -/
def cancel (w : WiredHub) : Task → WiredHub
  | .relay i => w.withHub (·.stop i)
  | .enumeration i => { w with adding := w.adding.modify i fun _ => [] }

/-- Cancels every task that the table has a handle of, and forgets the volumes. -/
def shutdown (w : WiredHub) : WiredHub :=
  { (w.tasks.foldl cancel w).withHub (·.withTable fun _ => []) with tasks := [] }

/-- Lets what an enumeration gives be added from now on; one that failed gives nothing. -/
def enumerate (found : Except SourceError (List VolumeReport)) (w : WiredHub) : WiredHub :=
  { w with adding := w.adding ++ [found.toOption.getD []] }.track (.enumeration w.adding.length)

/-- Lets a relay read an inbox. -/
def spawn (inbox : Inbox) (w : WiredHub) : WiredHub :=
  (w.withHub (·.relay inbox)).track (.relay w.hub.relays.length)

/-- Connects a relay. -/
def connect (w : WiredHub) : WiredHub := (w.subscribe (.relay w.hub.relays.length)).spawn .fresh

/-- Connects a relay, enumerates, and lets the relay run. -/
def start (found : Except SourceError (List VolumeReport)) (w : WiredHub) : WiredHub :=
  ((w.subscribe (.relay w.hub.relays.length)).enumerate found).spawn .fresh

/-- Lets a relay read the inbox of a listener, who is let go. -/
def adopt (i : Nat) (w : WiredHub) : WiredHub :=
  match w.hub.listeners[i]? with
  | some (some inbox) =>
    { w.withHub (·.drop i) with
      senders := w.senders.map (.handOver i w.hub.relays.length) }.spawn inbox
  | _ => w

/-- An operation on the table. -/
def operate (o : VolumeTable.Operation) (w : WiredHub) : WiredHub :=
  match o with
  | .enumerate found => w.enumerate found
  | .clear => w.shutdown
  | o => w.withHub (·.withTable (·.operate o))

/-! ## Calls and turns -/

/-- Answers a call. -/
def perform (w : WiredHub) : VolumeCall → WiredHub
  | .operate o => w.operate o
  | .mount r => w.mount r
  | .unmount id => w.unmount id
  | .notify e => w.publish e
  | .reset => w.reset
  | .listen => w.listen
  | .clear i => w.withHub (·.clear i)
  | .drop i => w.withHub (·.drop i)
  | .start found => w.start found
  | .connect => w.connect
  | .adopt i => w.adopt i
  | .feed events => w.spawn ⟨events, false⟩
  | .stop i => w.withHub (·.stop i)

/-- One turn of a task: a relay applies the first event that has arrived for it, an enumeration adds the next
volume that it found. -/
def turn (w : WiredHub) : Task → WiredHub
  | .relay i => w.withHub (·.advance i)
  | .enumeration i =>
    match w.adding[i]? with
    | some (r :: rest) =>
      { w.withHub (·.withTable (·.add (.ofReport r))) with adding := w.adding.set i rest }
    | _ => w

/-- The hubs to which calls lead, one after the other: what a call causes is done before the next one. -/
inductive Follows (a : WiredHub) : List VolumeCall → WiredHub → Prop where
  | start : Follows a [] a
  | turn {calls : List VolumeCall} {w : WiredHub} (h : Follows a calls w) (task : Task) :
      Follows a calls (w.turn task)
  | call {calls : List VolumeCall} {w : WiredHub} (h : Follows a calls w) (hdone : w.Done) (c : VolumeCall) :
      Follows a (calls ++ [c]) (w.perform c)

/-- The hubs that can come about in this way. -/
def Reachable (w : WiredHub) : Prop := ∃ calls, Follows .empty calls w

end WiredHub

end FileProvider
