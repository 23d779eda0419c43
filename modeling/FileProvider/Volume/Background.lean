import FileProvider.Volume.Hub

/-!
# Work in the background

The operations of a hub let everything that they cause be done before the next one begins. A hub at work
goes on by single turns, in any order: a relay applies one event, or an enumeration adds one of the volumes
that it found. Events may be published and relays connected at any time between two turns. A table is
replaced as a whole, so nothing finer than a turn can be seen.
-/

set_option autoImplicit false

namespace FileProvider

/-- A hub at work. -/
structure BusyHub where
  hub : VolumeHub
  /-- What each enumeration has still to add, in order. -/
  adding : List (List VolumeReport)
deriving DecidableEq, Repr

namespace BusyHub

/-- The mounted volumes as they are known now. -/
def table (b : BusyHub) : VolumeTable := b.hub.table

/-- Sends an event to every inbox that is connected. -/
def publish (e : VolumeEvent) (b : BusyHub) : BusyHub := { b with hub := b.hub.publish e }

/-- Connects a relay. -/
def connect (b : BusyHub) : BusyHub := { b with hub := b.hub.relay .fresh }

/-- Connects a relay, and lets what an enumeration gives be added from now on. -/
def start (enumeration : Except SourceError (List VolumeReport)) (b : BusyHub) : BusyHub :=
  match enumeration with
  | .ok found => { b.connect with adding := b.adding ++ [found] }
  | .error _ => b.connect

/-- One turn of the work in the background. -/
inductive Turn : BusyHub → BusyHub → Prop where
  /-- A relay applies the first event that has arrived for it. -/
  | applied (h : VolumeHub) (adding : List (List VolumeReport)) (before after : List Relay) (r : Relay)
      (hr : h.relays = before ++ r :: after) :
      Turn ⟨h, adding⟩
        ⟨{ h with table := (r.step h.table).2, relays := before ++ (r.step h.table).1 :: after }, adding⟩
  /-- An enumeration adds the next volume that it found. -/
  | added (h : VolumeHub) (before after : List (List VolumeReport)) (r : VolumeReport)
      (rest : List VolumeReport) :
      Turn ⟨h, before ++ (r :: rest) :: after⟩
        ⟨h.withTable fun t => t.add (.ofReport r), before ++ rest :: after⟩

/-- The hubs to which work leads while the given events are published, one after the other, and while
relays are connected. -/
inductive Run (a : BusyHub) : List VolumeEvent → BusyHub → Prop where
  | start : Run a [] a
  | turn {events : List VolumeEvent} {b c : BusyHub} (h : Run a events b) (hturn : Turn b c) :
      Run a events c
  | publish {events : List VolumeEvent} {b : BusyHub} (h : Run a events b) (e : VolumeEvent) :
      Run a (events ++ [e]) (b.publish e)
  | connect {events : List VolumeEvent} {b : BusyHub} (h : Run a events b) : Run a events b.connect

/-- Nothing is left to be done: everything that arrived is applied, and everything that was found is
added. -/
structure Done (b : BusyHub) : Prop where
  applied : ∀ r ∈ b.hub.relays, r.running = true → r.inbox.pending = []
  added : ∀ rest ∈ b.adding, rest = []

end BusyHub

end FileProvider
