import Mathlib.Data.List.Nodup
import FileProvider.Proofs.Volume.Readers

/-!
# Who has a sender

A channel knows its readers only through its senders, of which some may be out of use. A reader that is still
there hears more exactly if there is a sender for it.
-/

set_option autoImplicit false

namespace FileProvider

namespace WiredHub

open VolumeHub

variable {w v : WiredHub} {reader : Reader} {task : Task} {inbox : Inbox} {i : Nat}

/-- The channel has one sender at most for each reader, and a reader that is there hears more exactly if there is a
sender for it. -/
structure Linked (w : WiredHub) : Prop where
  nodup : w.senders.Nodup
  known : ∀ reader ∈ w.senders, w.hub.Knows reader
  connected : ∀ reader inbox, w.hub.inbox? reader = some inbox →
    (inbox.connected = true ↔ reader ∈ w.senders)

theorem Linked.shrink (h : Linked w) (hsenders : v.senders = w.senders) (hshrinks : Shrinks w.hub v.hub) :
    Linked v where
  nodup := hsenders ▸ h.nodup
  known reader hreader := hshrinks.known reader (h.known reader (hsenders ▸ hreader))
  connected reader inbox hinbox := by
    obtain ⟨old, hold, hconnected, -⟩ := hshrinks.inbox reader inbox hinbox
    rw [← hconnected, h.connected reader old hold, hsenders]

/-- A new reader has a sender if its inbox is connected. -/
theorem Linked.add {new : Reader} (h : Linked w) (inbox : Inbox)
    (hsenders : v.senders = w.senders ++ if inbox.connected then [new] else [])
    (hnew : ¬ w.hub.Knows new) (hknows : v.hub.Knows new)
    (hknown : ∀ reader, w.hub.Knows reader → v.hub.Knows reader)
    (hinbox : ∀ reader, v.hub.inbox? reader = if reader = new then some inbox else w.hub.inbox? reader) :
    Linked v := by
  have hfresh : new ∉ w.senders := fun hmem => hnew (h.known new hmem)
  refine ⟨?_, ?_, fun reader i hi => ?_⟩
  · rw [hsenders]
    split
    · exact List.nodup_append.mpr ⟨h.nodup, List.nodup_singleton new, by
        rintro reader hreader _ hmem rfl
        exact hfresh (List.mem_singleton.mp hmem ▸ hreader)⟩
    · rw [List.append_nil]
      exact h.nodup
  · intro reader hreader
    rw [hsenders, List.mem_append] at hreader
    rcases hreader with hreader | hreader
    · exact hknown reader (h.known reader hreader)
    · split at hreader
      · exact List.mem_singleton.mp hreader ▸ hknows
      · cases hreader
  · rw [hinbox] at hi
    rw [hsenders, List.mem_append]
    by_cases hreader : reader = new
    · subst hreader
      rw [if_pos rfl] at hi
      cases hi
      cases inbox.connected <;> simp [hfresh]
    · rw [if_neg hreader] at hi
      rw [h.connected reader i hi]
      refine ⟨.inl, fun hmem => hmem.resolve_right fun hmem => ?_⟩
      split at hmem
      · exact hreader (List.mem_singleton.mp hmem)
      · cases hmem

theorem Linked.withMounted (h : Linked w) (f : List VolumeReport → List VolumeReport) :
    Linked (w.withHub (·.withMounted f)) := h.shrink rfl (shrinks_of_same rfl rfl)

/-- What is published arrives where the inbox is connected, and nowhere else. -/
theorem Linked.inbox?_publish (h : Linked w) (e : VolumeEvent) (reader : Reader) :
    (w.publish e).hub.inbox? reader = (w.hub.inbox? reader).map (Inbox.receive e) := by
  rw [WiredHub.publish, inbox?_atInboxes (h.nodup.filter _)]
  cases hinbox : w.hub.inbox? reader with
  | none => split <;> rfl
  | some inbox =>
    have hlive : reader ∈ w.senders.filter (fun reader => (w.hub.inbox? reader).isSome) ↔
        inbox.connected = true := by
      rw [List.mem_filter, hinbox, h.connected reader inbox hinbox]
      exact and_iff_left rfl
    rw [Option.map_some, Option.map_some, Inbox.receive]
    by_cases hconnected : inbox.connected = true
    · rw [if_pos (hlive.mpr hconnected), if_pos hconnected]
      rfl
    · rw [if_neg (mt hlive.mp hconnected), if_neg hconnected]

/-- When the channel is replaced every inbox is cut off. -/
theorem Linked.inbox?_reset (h : Linked w) (reader : Reader) :
    w.reset.hub.inbox? reader = (w.hub.inbox? reader).map Inbox.cutOff := by
  rw [WiredHub.reset, inbox?_atInboxes h.nodup, inbox?_withMounted]
  split
  · rfl
  · next hreader =>
    cases hinbox : w.hub.inbox? reader with
    | none => rfl
    | some inbox =>
      have hcut : inbox.connected = false :=
        Bool.eq_false_iff.mpr fun heq => hreader ((h.connected reader inbox hinbox).mp heq)
      rw [Option.map_some, Inbox.cutOff, ← hcut]

theorem connected_receive (e : VolumeEvent) (inbox : Inbox) :
    (inbox.receive e).connected = inbox.connected := by
  unfold Inbox.receive
  split <;> rfl

theorem Linked.publish (h : Linked w) (e : VolumeEvent) : Linked (w.publish e) := by
  refine ⟨h.nodup.filter _, fun reader hreader => ?_, fun reader inbox hinbox => ?_⟩
  · exact knows_atInboxes (h.known reader (List.mem_of_mem_filter hreader))
  · rw [h.inbox?_publish] at hinbox
    obtain ⟨old, hold, rfl⟩ := Option.map_eq_some_iff.mp hinbox
    rw [connected_receive, h.connected reader old hold]
    simp [WiredHub.publish, hold]

theorem Linked.reset (h : Linked w) : Linked w.reset := by
  refine ⟨List.nodup_nil, fun reader hreader => (by cases hreader), fun reader inbox hinbox => ?_⟩
  rw [h.inbox?_reset] at hinbox
  obtain ⟨old, -, rfl⟩ := Option.map_eq_some_iff.mp hinbox
  simp [Inbox.cutOff, WiredHub.reset]

/-- The senders after one was handed over. -/
theorem mem_map_handOver {senders : List Reader} {n : Nat} : reader ∈ senders.map (Reader.handOver i n) ↔
    (reader = .relay n ∧ .listener i ∈ senders) ∨ (reader ≠ .listener i ∧ reader ∈ senders) := by
  rw [List.mem_map]
  constructor
  · rintro ⟨sender, hsender, rfl⟩
    by_cases heq : sender = .listener i
    · exact .inl ⟨if_pos heq, heq ▸ hsender⟩
    · rw [Reader.handOver, if_neg heq]
      exact .inr ⟨heq, hsender⟩
  · rintro (⟨rfl, hsender⟩ | ⟨hne, hsender⟩)
    · exact ⟨_, hsender, if_pos rfl⟩
    · exact ⟨reader, hsender, if_neg hne⟩

theorem nodup_map_handOver {senders : List Reader} {n : Nat} (hnodup : senders.Nodup)
    (hnew : .relay n ∉ senders) : (senders.map (Reader.handOver i n)).Nodup := by
  refine List.Nodup.map_on (fun a ha b hb heq => ?_) hnodup
  unfold Reader.handOver at heq
  split at heq <;> split at heq
  · next hai hbi => rw [hai, hbi]
  · exact absurd (heq ▸ hb) hnew
  · exact absurd (heq ▸ ha) hnew
  · exact heq

theorem adopt_of_dropped (h : w.hub.inbox? (.listener i) = none) : w.adopt i = w := by
  unfold adopt
  split
  · next hlistener =>
    rw [inbox?, hlistener] at h
    cases h
  · rfl

theorem adopt_of_listener (h : w.hub.inbox? (.listener i) = some inbox) : w.adopt i
    = WiredHub.spawn inbox
      { w.withHub (·.drop i) with senders := w.senders.map (.handOver i w.hub.relays.length) } := by
  have hlistener : w.hub.listeners[i]? = some (some inbox) := by
    obtain ⟨l, hl, rfl⟩ := Option.bind_eq_some_iff.mp h
    exact hl
  rw [adopt, hlistener]

theorem hub_adopt (hlistener : w.hub.inbox? (.listener i) = some inbox) :
    (w.adopt i).hub = (w.hub.drop i).relay inbox := by
  rw [adopt_of_listener hlistener]
  rfl

/-- The readers after a relay took over the inbox of a listener. -/
theorem inbox?_adopt (hlistener : w.hub.inbox? (.listener i) = some inbox) : (w.adopt i).hub.inbox? reader
    = if reader = .relay w.hub.relays.length then some inbox
      else if reader = .listener i then none else w.hub.inbox? reader := by
  rw [hub_adopt hlistener]
  exact inbox?_relay.trans (congrArg _ inbox?_drop)

theorem Linked.adopt (h : Linked w) (i : Nat) : Linked (w.adopt i) := by
  cases hold : w.hub.inbox? (.listener i) with
  | none => rwa [adopt_of_dropped hold]
  | some inbox =>
    have hnew : .relay w.hub.relays.length ∉ w.senders := fun hmem => Nat.lt_irrefl _ (h.known _ hmem)
    have hsenders : (w.adopt i).senders = w.senders.map (Reader.handOver i w.hub.relays.length) := by
      rw [adopt_of_listener hold]
      rfl
    refine ⟨hsenders ▸ nodup_map_handOver h.nodup hnew, fun reader hreader => ?_, fun reader inbox' hinbox => ?_⟩
    · rw [hsenders, mem_map_handOver] at hreader
      rw [hub_adopt hold]
      rcases hreader with ⟨rfl, -⟩ | ⟨-, hsender⟩
      · show _ < ((w.hub.drop i).relay inbox).relays.length
        simp [VolumeHub.relay, VolumeHub.drop]
      · exact knows_relay ((shrinks_drop w.hub i).known reader (h.known reader hsender))
    · rw [hsenders, mem_map_handOver]
      rw [inbox?_adopt hold] at hinbox
      by_cases hrelay : reader = .relay w.hub.relays.length
      · rw [if_pos hrelay] at hinbox
        cases hinbox
        subst hrelay
        simp [h.connected _ _ hold, hnew]
      · rw [if_neg hrelay] at hinbox
        by_cases hreader : reader = .listener i
        · rw [if_pos hreader] at hinbox
          cases hinbox
        · rw [if_neg hreader] at hinbox
          simp [h.connected _ _ hinbox, hrelay, hreader]

theorem Linked.listen (h : Linked w) : Linked w.listen :=
  h.add .fresh rfl (Nat.lt_irrefl _)
    (by show _ < w.hub.listen.listeners.length; simp [VolumeHub.listen])
    (fun _ => knows_listen) fun _ => inbox?_listen

/-- A relay that is started is connected to the channel if its inbox is. -/
theorem Linked.spawn (h : Linked w) (inbox : Inbox)
    (hsenders : v.senders = w.senders ++ if inbox.connected then [.relay w.hub.relays.length] else [])
    (hhub : v.hub = w.hub.relay inbox) : Linked v := by
  refine h.add inbox hsenders (Nat.lt_irrefl _) ?_ (fun _ => ?_) fun _ => ?_
  · rw [hhub]
    show _ < (w.hub.relay inbox).relays.length
    simp [VolumeHub.relay]
  · rw [hhub]
    exact knows_relay
  · rw [hhub]
    exact inbox?_relay

/-- An enumeration adds the next volume that it found, or there is none left. -/
theorem turn_enumeration_cases (w : WiredHub) (i : Nat) :
    (∃ r rest, w.adding[i]? = some (r :: rest) ∧ w.turn (.enumeration i)
        = { w.withHub (·.withTable (·.add (.ofReport r))) with adding := w.adding.set i rest }) ∨
      w.turn (.enumeration i) = w := by
  rw [turn]
  rcases w.adding[i]? with _ | _ | ⟨r, rest⟩
  · exact .inr rfl
  · exact .inr rfl
  · exact .inl ⟨r, rest, rfl, rfl⟩

theorem shrinks_turn (w : WiredHub) (task : Task) : Shrinks w.hub (w.turn task).hub := by
  cases task with
  | relay i => exact shrinks_advance w.hub i
  | enumeration i =>
    rcases w.turn_enumeration_cases i with ⟨r, rest, -, hturn⟩ | hturn <;> rw [hturn]
    · exact shrinks_of_same rfl rfl
    · exact .refl w.hub

theorem senders_turn (w : WiredHub) (task : Task) : (w.turn task).senders = w.senders := by
  cases task with
  | relay i => rfl
  | enumeration i =>
    rcases w.turn_enumeration_cases i with ⟨r, rest, -, hturn⟩ | hturn
    · rw [hturn]
      rfl
    · rw [hturn]

theorem Linked.turn (h : Linked w) (task : Task) : Linked (w.turn task) :=
  h.shrink (senders_turn w task) (shrinks_turn w task)

end WiredHub

end FileProvider
