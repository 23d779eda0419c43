import FileProvider.Proofs.Volume.Simulation

/-!
# What a channel told

As long as a channel alone tells what is mounted, its list of volumes is what the events that it has told come to, and
every reader has before it the end of these events: an inbox gets each event as it is told, it is read from the
front, and a relay that takes over the inbox of a listener goes on where the listener stopped.
-/

set_option autoImplicit false

namespace FileProvider

/-- Whether a call leaves it to the channel alone to tell what is mounted: nothing is published that the channel does
not keep, it is not replaced, and no relay gets its events from elsewhere. -/
def VolumeCall.onChannel : VolumeCall → Bool
  | .notify _ => false
  | .reset => false
  | .feed _ => false
  | _ => true

/-- The events that a call publishes. -/
def VolumeCall.published : VolumeCall → List VolumeEvent
  | .mount r => [.mounted r]
  | .unmount id => [.unmounted id]
  | .notify e => [e]
  | _ => []

namespace WiredHub

open VolumeEvent VolumeHub VolumeReport

variable {w v : WiredHub} {events : List VolumeEvent}

/-- The hubs whose channel alone tells what is mounted. -/
inductive Telling : WiredHub → Prop where
  | empty : Telling .empty
  | turn {w : WiredHub} (h : Telling w) (task : Task) : Telling (w.turn task)
  | call {w : WiredHub} (h : Telling w) (c : VolumeCall) (hc : c.onChannel = true) : Telling (w.perform c)

/-- A channel has told some events: the last one about each volume says whether it is mounted, and every reader has
before it the end of them. -/
structure Told (events : List VolumeEvent) (w : WiredHub) : Prop where
  linked : Linked w
  distinct : (w.hub.mounted.map VolumeReport.id).Nodup
  last : ∀ id, (named? w.hub.mounted id).map .ofReport = (lastAbout id events).bind leaves
  behind : ∀ reader inbox, w.hub.inbox? reader = some inbox →
    inbox.connected = true ∧ inbox.pending <:+ events

/-- Nothing is told: every inbox is a new one, or what is left of one that there was. -/
theorem Told.keep (h : Told events w) (hlinked : Linked v) (hmounted : v.hub.mounted = w.hub.mounted)
    (hinbox : ∀ reader inbox, v.hub.inbox? reader = some inbox → inbox = .fresh ∨
      ∃ before old, w.hub.inbox? before = some old ∧ old.connected = inbox.connected ∧
        inbox.pending <:+ old.pending) : Told events v where
  linked := hlinked
  distinct := hmounted ▸ h.distinct
  last := hmounted ▸ h.last
  behind reader inbox hreader := by
    rcases hinbox reader inbox hreader with rfl | ⟨before, old, hold, hconnected, hpending⟩
    · exact ⟨rfl, List.nil_suffix⟩
    · obtain ⟨hold', hsuffix⟩ := h.behind before old hold
      exact ⟨hconnected ▸ hold', hpending.trans hsuffix⟩

theorem Told.shrink (h : Told events w) (hsenders : v.senders = w.senders)
    (hmounted : v.hub.mounted = w.hub.mounted) (hshrinks : Shrinks w.hub v.hub) : Told events v :=
  h.keep (h.linked.shrink hsenders hshrinks) hmounted fun reader inbox hinbox =>
    .inr ⟨reader, hshrinks.inbox reader inbox hinbox⟩

/-- A new reader hears what is told from now on. -/
theorem Told.join (h : Told events w) (hlinked : Linked v) (hmounted : v.hub.mounted = w.hub.mounted) {new : Reader}
    (hinbox : ∀ reader, v.hub.inbox? reader = if reader = new then some .fresh else w.hub.inbox? reader) :
    Told events v := by
  refine h.keep hlinked hmounted fun reader inbox hreader => ?_
  rw [hinbox] at hreader
  split at hreader
  · exact .inl (Option.some.inj hreader).symm
  · exact .inr ⟨reader, inbox, hreader, rfl, List.suffix_refl _⟩

theorem Told.adopt (h : Told events w) (i : Nat) : Told events (w.adopt i) := by
  cases hold : w.hub.inbox? (.listener i) with
  | none => rwa [adopt_of_dropped hold]
  | some old =>
    refine h.keep (h.linked.adopt i) (by rw [hub_adopt hold]; rfl) fun reader inbox hreader => .inr ?_
    rw [inbox?_adopt hold] at hreader
    split at hreader
    · cases hreader
      exact ⟨_, old, hold, rfl, List.suffix_refl _⟩
    · split at hreader
      · cases hreader
      · exact ⟨reader, inbox, hreader, rfl, List.suffix_refl _⟩

/-- An event is told: it goes to every reader, and what the channel keeps is what the event leaves. -/
theorem Told.tell (h : Told events w) {f : List VolumeReport → List VolumeReport} {e : VolumeEvent}
    (hdistinct : ((f w.hub.mounted).map VolumeReport.id).Nodup)
    (hlast : ∀ id, (named? (f w.hub.mounted) id).map .ofReport
      = if e.volumeId = id then e.leaves else (named? w.hub.mounted id).map .ofReport) :
    Told (events ++ [e]) ((w.withHub (·.withMounted f)).publish e) := by
  have hlinked := h.linked.withMounted f
  have hmounted : ((w.withHub (·.withMounted f)).publish e).hub.mounted = f w.hub.mounted :=
    (atInboxes_same _ _ _).2.1
  refine ⟨hlinked.publish e, hmounted ▸ hdistinct, fun id => ?_, fun reader inbox hreader => ?_⟩
  · rw [hmounted, hlast, h.last, lastAbout_append, lastAbout_singleton]
    split <;> rfl
  · rw [hlinked.inbox?_publish] at hreader
    obtain ⟨old, hold, rfl⟩ := Option.map_eq_some_iff.mp hreader
    obtain ⟨hconnected, earlier, hearlier⟩ := h.behind reader old ((inbox?_withMounted f).symm.trans hold)
    refine ⟨(connected_receive e old).trans hconnected, earlier, ?_⟩
    rw [Inbox.receive, if_pos hconnected, ← hearlier, List.append_assoc]

theorem Told.mount (h : Told events w) (r : VolumeReport) : Told (events ++ [.mounted r]) (w.mount r) := by
  refine h.tell ?_ fun id => ?_
  · have hothers := h.distinct.sublist ((List.filter_sublist (p := fun m => m.id ≠ r.id)).map _)
    rw [List.map_append, List.nodup_append]
    refine ⟨hothers, List.nodup_singleton _, ?_⟩
    rintro _ hother _ hnew rfl
    obtain ⟨m, hm, heq⟩ := List.mem_map.mp hother
    have hne : m.id ≠ r.id := by simpa using List.of_mem_filter hm
    exact hne (heq.trans (List.mem_singleton.mp hnew))
  · rw [named?_append_singleton, named?_forget h.distinct]
    by_cases hid : r.id = id <;> simp [hid, VolumeEvent.volumeId, leaves]

theorem Told.unmount (h : Told events w) (gone : String) : Told (events ++ [.unmounted gone]) (w.unmount gone) := by
  refine h.tell (h.distinct.sublist (List.filter_sublist.map _)) fun id => ?_
  rw [named?_forget h.distinct]
  by_cases hid : gone = id <;> simp [hid, VolumeEvent.volumeId, leaves]

theorem mounted_turn (w : WiredHub) (task : Task) : (w.turn task).hub.mounted = w.hub.mounted := by
  cases task with
  | relay i =>
    show (w.hub.advance i).mounted = w.hub.mounted
    unfold advance
    split <;> rfl
  | enumeration i =>
    rcases w.turn_enumeration_cases i with ⟨r, rest, -, hturn⟩ | hturn <;> rw [hturn]
    rfl

theorem Told.turn (h : Told events w) (task : Task) : Told events (w.turn task) :=
  h.shrink (senders_turn w task) (mounted_turn w task) (shrinks_turn w task)

theorem Told.perform_of_silent (h : Told events w) {c : VolumeCall} (hc : c.onChannel = true)
    (hsilent : c.published = []) : Told events (w.perform c) := by
  cases c with
  | mount r => cases hsilent
  | unmount id => cases hsilent
  | notify e => cases hc
  | reset => cases hc
  | feed events => cases hc
  | operate o =>
    cases o with
    | clear => exact h.shrink (senders_shutdown w) (foldl_cancel_same w.tasks w).1 (shrinks_shutdown w)
    | _ => exact h.shrink rfl rfl (shrinks_of_same rfl rfl)
  | listen => exact h.join h.linked.listen rfl fun _ => inbox?_listen
  | clear i => exact h.shrink rfl rfl (shrinks_clear w.hub i)
  | drop i => exact h.shrink rfl rfl (shrinks_drop w.hub i)
  | stop i => exact h.shrink rfl rfl (shrinks_stop w.hub i)
  | start found => exact h.join (h.linked.perform (.start found)) rfl fun _ => inbox?_relay
  | connect => exact h.join (h.linked.perform .connect) rfl fun _ => inbox?_relay
  | adopt i => exact h.adopt i

/-- A call tells what it publishes, and nothing else. -/
theorem Told.perform (h : Told events w) {c : VolumeCall} (hc : c.onChannel = true) :
    Told (events ++ c.published) (w.perform c) := by
  cases c with
  | mount r => exact h.mount r
  | unmount id => exact h.unmount id
  | notify e => cases hc
  | _ =>
    show Told (events ++ []) _
    rw [List.append_nil]
    exact h.perform_of_silent hc rfl

theorem Telling.told (h : Telling w) : ∃ events, Told events w := by
  induction h with
  | empty =>
    refine ⟨[], linked_empty, List.nodup_nil, fun _ => rfl, fun reader _ hinbox => ?_⟩
    cases reader <;> cases hinbox
  | turn _ task ih =>
    obtain ⟨events, htold⟩ := ih
    exact ⟨events, htold.turn task⟩
  | call _ c hc ih =>
    obtain ⟨events, htold⟩ := ih
    exact ⟨_, htold.perform hc⟩

end WiredHub

end FileProvider
