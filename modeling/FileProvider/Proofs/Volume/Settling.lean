import Mathlib.Logic.Relation
import FileProvider.Volume.Background

/-!
# Everything at once

A hub that lets everything be done at once takes the turns of its background work in one particular order:
an enumeration adds all that it found, and then each relay in its place applies all that arrived. So what
such a hub does is one of the things that a hub at work may do, and nothing is left to be done after it.
-/

set_option autoImplicit false

namespace FileProvider

/-! ## What is done at once -/

/-- Events that arrive one after the other in an inbox that is connected are there in this order. -/
theorem Inbox.foldl_receive (events : List VolumeEvent) {i : Inbox} (h : i.connected = true) :
    events.foldl (fun i e => i.receive e) i = { i with pending := i.pending ++ events } := by
  induction events generalizing i with
  | nil => simp
  | cons e events ih =>
    have hreceive : i.receive e = { i with pending := i.pending ++ [e] } := by simp [receive, h]
    rw [List.foldl_cons, hreceive, ih (show Inbox.connected ⟨i.pending ++ [e], _⟩ = true from h)]
    simp

namespace VolumeHub

/-- Events that are published one after the other arrive so in every inbox. -/
theorem foldl_publish (events : List VolumeEvent) (h : VolumeHub) :
    events.foldl (fun h e => h.publish e) h
      = h.withInboxes fun i => events.foldl (fun i e => i.receive e) i := by
  induction events generalizing h with
  | nil => simp [withInboxes]
  | cons e events ih =>
    rw [List.foldl_cons, ih]
    simp [publish, withInboxes, Function.comp_def]

/-- A relay that is running has nothing left before it when every relay had its turn. -/
theorem pending_drainAll (relays : List Relay) (t : VolumeTable) :
    ∀ r ∈ (drainAll relays t).1, r.running = true → r.inbox.pending = [] := by
  induction relays generalizing t with
  | nil => simp [drainAll]
  | cons r rest ih =>
    show ∀ q ∈ (r.drain t).1 :: (drainAll rest (r.drain t).2).1, _
    rw [List.forall_mem_cons]
    refine ⟨fun hrunning => ?_, ih _⟩
    unfold Relay.drain at hrunning ⊢
    split
    · rfl
    · next hstopped => simp [hstopped] at hrunning

/-- The only relay takes over all that is published. -/
theorem table_settle_publish {h : VolumeHub} (hrelays : h.relays = [⟨.fresh, true⟩])
    (events : List VolumeEvent) :
    (events.foldl (fun h e => h.publish e) h).settle.table = h.table.applyAll events := by
  have hinbox : events.foldl (fun i e => i.receive e) Inbox.fresh = ⟨events, true⟩ :=
    Inbox.foldl_receive events rfl
  simp [foldl_publish, settle, withInboxes, hrelays, hinbox, drainAll, Relay.drain]

end VolumeHub

/-! ## The turns that lead there -/

namespace BusyHub

variable {a b c : BusyHub} {events later : List VolumeEvent}

theorem Run.trans (hab : Run a events b) (hbc : Run b later c) : Run a (events ++ later) c := by
  induction hbc with
  | start => rwa [List.append_nil]
  | turn _ hturn ih => exact .turn ih hturn
  | publish _ e ih => exact List.append_assoc .. ▸ .publish ih e
  | connect _ ih => exact .connect ih

/-- Several turns, one after the other. -/
abbrev Turns : BusyHub → BusyHub → Prop := Relation.ReflTransGen Turn

theorem Turns.run (h : Turns a b) : Run a [] b := by
  induction h with
  | refl => exact .start
  | tail _ hturn ih => exact .turn ih hturn

/-- An enumeration adds all that it found. -/
theorem turns_added (hub : VolumeHub) (before after : List (List VolumeReport)) (found : List VolumeReport) :
    Turns ⟨hub, before ++ found :: after⟩
      ⟨hub.withTable fun t => t.enumerate (.ok found), before ++ [] :: after⟩ := by
  induction found generalizing hub with
  | nil => exact .refl
  | cons r found ih => exact .head (.added hub before after r found) (ih _)

/-- The enumerations add all that they found, one after the other. -/
theorem turns_flatten (hub : VolumeHub) (before adding : List (List VolumeReport)) :
    Turns ⟨hub, before ++ adding⟩
      ⟨hub.withTable fun t => t.enumerate (.ok adding.flatten), before ++ adding.map fun _ => []⟩ := by
  induction adding generalizing hub before with
  | nil => exact .refl
  | cons found adding ih =>
    have hrest := ih (hub.withTable fun t => t.enumerate (.ok found)) (before ++ [[]])
    have hboth : ∀ t : VolumeTable, (t.enumerate (.ok found)).enumerate (.ok adding.flatten)
        = t.enumerate (.ok (found :: adding).flatten) := fun t => List.foldl_append.symm
    simp only [VolumeHub.withTable, hboth, List.append_assoc, List.singleton_append] at hrest
    exact (turns_added hub before adding found).trans hrest

/-- A relay applies all that arrived for it. -/
theorem turns_drained (hub : VolumeHub) (adding : List (List VolumeReport)) (before after : List Relay)
    (r : Relay) (hr : hub.relays = before ++ r :: after) :
    Turns ⟨hub, adding⟩
      ⟨{ hub with table := (r.drain hub.table).2, relays := before ++ (r.drain hub.table).1 :: after },
        adding⟩ := by
  obtain ⟨⟨pending, connected⟩, running⟩ := r
  cases running with
  | false =>
    show Turns _ ⟨{ hub with relays := before ++ _ :: after }, adding⟩
    exact hr ▸ .refl
  | true =>
    induction pending generalizing hub with
    | nil =>
      show Turns _ ⟨{ hub with relays := before ++ _ :: after }, adding⟩
      exact hr ▸ .refl
    | cons e rest ih => exact .head (.applied hub adding before after _ hr) (ih _ rfl)

/-- The relays in turn apply all that arrived for them. -/
theorem turns_drainAll (adding : List (List VolumeReport)) (before rest : List Relay) (hub : VolumeHub)
    (hrelays : hub.relays = before ++ rest) :
    Turns ⟨hub, adding⟩
      ⟨{ hub with
          table := (VolumeHub.drainAll rest hub.table).2
          relays := before ++ (VolumeHub.drainAll rest hub.table).1 }, adding⟩ := by
  induction rest generalizing hub before with
  | nil =>
    show Turns _ ⟨{ hub with relays := before ++ [] }, adding⟩
    exact hrelays ▸ .refl
  | cons r rest ih =>
    have hfirst := turns_drained hub adding before rest r hrelays
    have hrest := ih (before ++ [(r.drain hub.table).1])
      { hub with table := (r.drain hub.table).2, relays := before ++ (r.drain hub.table).1 :: rest } (by simp)
    rw [List.append_assoc] at hrest
    exact hfirst.trans hrest

/-- Letting everything be applied at once is a matter of turns. -/
theorem turns_settle (hub : VolumeHub) (adding : List (List VolumeReport)) :
    Turns ⟨hub, adding⟩ ⟨hub.settle, adding⟩ :=
  turns_drainAll adding [] hub.relays hub rfl

theorem run_added (hub : VolumeHub) (before after : List (List VolumeReport)) (found : List VolumeReport) :
    Run ⟨hub, before ++ found :: after⟩ []
      ⟨hub.withTable fun t => t.enumerate (.ok found), before ++ [] :: after⟩ :=
  (turns_added hub before after found).run

theorem run_settle (hub : VolumeHub) (adding : List (List VolumeReport)) :
    Run ⟨hub, adding⟩ [] ⟨hub.settle, adding⟩ :=
  (turns_settle hub adding).run

/-- Starting at once is a run from where the work begins. -/
theorem run_start (hub : VolumeHub) (found : List VolumeReport) :
    Run (start (.ok found) ⟨hub, []⟩) [] ⟨hub.start (.ok found), [[]]⟩ :=
  (run_added (hub.relay .fresh) [] [] found).trans (run_settle _ _)

/-- Publishing events one after the other is a run. -/
theorem run_publish (events : List VolumeEvent) (b : BusyHub) :
    Run b events { b with hub := events.foldl (fun h e => h.publish e) b.hub } := by
  induction events generalizing b with
  | nil => exact .start
  | cons e events ih => exact (Run.publish .start e).trans (ih (b.publish e))

end BusyHub

end FileProvider
