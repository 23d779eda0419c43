import FileProvider.Proofs.Volume.Senders

/-!
# Who has a handle

A table knows its tasks only through its handles, and lets those of finished tasks go. A task that is finished
stays so, through every turn and every call; so every task that is not finished has a handle, and a shutdown
finishes them all.
-/

set_option autoImplicit false

namespace FileProvider

/-- Whether a call begins a task. -/
def VolumeCall.begins : VolumeCall → Bool
  | .operate (.enumerate _) => true
  | .start _ => true
  | .connect => true
  | .adopt _ => true
  | .feed _ => true
  | _ => false

namespace WiredHub

open VolumeHub

variable {w v : WiredHub} {task : Task} {inbox : Inbox} {i : Nat}

/-! ## Finished tasks -/

theorem isOver_of_shrinks (hshrinks : Shrinks w.hub v.hub) (hadding : v.adding = w.adding)
    (hover : w.isOver task = true) : v.isOver task = true := by
  cases task with
  | relay i => exact hshrinks.finished hover
  | enumeration i =>
    show (v.adding[i]?.getD []).isEmpty = true
    rw [hadding]
    exact hover

/-- No turn of a task brings another one back. -/
theorem isOver_turn (hover : w.isOver task = true) (t : Task) : (w.turn t).isOver task = true := by
  cases t with
  | relay i => exact isOver_of_shrinks (shrinks_turn w _) rfl hover
  | enumeration i =>
    rcases w.turn_enumeration_cases i with ⟨r, rest, hi, hturn⟩ | hturn <;> rw [hturn]
    · cases task with
      | relay j => exact (shrinks_of_same rfl rfl : Shrinks w.hub _).finished hover
      | enumeration j =>
        show ((w.adding.set i rest)[j]?.getD []).isEmpty = true
        by_cases hij : i = j
        · subst hij
          rw [isOver, hi] at hover
          cases hover
        · rw [List.getElem?_set_ne hij]
          exact hover
    · exact hover

/-- Where inboxes change in such a way that one which is empty and cut off stays as it is, no relay that is finished
comes back. -/
theorem finished_of_map {h h' : VolumeHub} {f : Inbox → Inbox}
    (hinbox : h'.inbox? (.relay i) = (h.inbox? (.relay i)).map f)
    (hf : ∀ inbox : Inbox, inbox.pending = [] → inbox.connected = false → f inbox = inbox)
    (hfinished : h.finished i = true) : h'.finished i = true := by
  rw [finished_eq] at hfinished ⊢
  rw [hinbox]
  cases hold : h.inbox? (.relay i) with
  | none => rfl
  | some inbox =>
    rw [hold] at hfinished
    obtain ⟨hempty, hcut⟩ := Bool.and_eq_true_iff.mp hfinished
    rw [Option.map_some, hf inbox (List.isEmpty_iff.mp hempty) (by simpa using hcut)]
    exact hfinished

/-- What is published does not reach a relay that is finished. -/
theorem isOver_publish (h : Linked w) (hover : w.isOver task = true) (e : VolumeEvent) :
    (w.publish e).isOver task = true := by
  cases task with
  | enumeration i => exact hover
  | relay i =>
    refine finished_of_map (h.inbox?_publish e _) (fun inbox _ hcut => ?_) hover
    rw [Inbox.receive, if_neg (by simp [hcut])]

theorem isOver_reset (h : Linked w) (hover : w.isOver task = true) : w.reset.isOver task = true := by
  cases task with
  | enumeration i => exact hover
  | relay i =>
    refine finished_of_map (h.inbox?_reset _) (fun inbox _ hcut => ?_) hover
    rw [Inbox.cutOff, ← hcut]

theorem isOver_listen (hover : w.isOver task = true) : w.listen.isOver task = true := by
  cases task with
  | enumeration i => exact hover
  | relay i =>
    change w.hub.finished i = true at hover
    show w.hub.listen.finished i = true
    rwa [finished_eq, inbox?_listen, if_neg (by simp), ← finished_eq]

/-! ### Cancelling -/

theorem shrinks_cancel (w : WiredHub) (task : Task) : Shrinks w.hub (w.cancel task).hub := by
  cases task with
  | relay i => exact shrinks_stop w.hub i
  | enumeration i => exact .refl w.hub

theorem isOver_cancel_self (w : WiredHub) (task : Task) : (w.cancel task).isOver task = true := by
  cases task with
  | relay i =>
    show (w.hub.stop i).finished i = true
    rw [finished_eq, inbox?_stop, if_pos rfl]
    rfl
  | enumeration i =>
    show ((w.adding.modify i fun _ => [])[i]?.getD []).isEmpty = true
    rw [List.getElem?_modify_eq]
    cases w.adding[i]? <;> rfl

theorem isOver_cancel (hover : w.isOver task = true) (t : Task) : (w.cancel t).isOver task = true := by
  cases t with
  | relay i => exact isOver_of_shrinks (shrinks_cancel w _) rfl hover
  | enumeration i =>
    cases task with
    | relay j => exact hover
    | enumeration j =>
      by_cases hij : i = j
      · exact hij ▸ isOver_cancel_self w (.enumeration i)
      · show ((w.adding.modify i fun _ => [])[j]?.getD []).isEmpty = true
        rw [List.getElem?_modify_ne _ _ hij]
        exact hover

/-- Cancelling several tasks: each of them is over, and none comes back. -/
theorem foldl_cancel (tasks : List Task) (w : WiredHub) :
    (tasks.foldl cancel w).senders = w.senders ∧ Shrinks w.hub (tasks.foldl cancel w).hub ∧
      ∀ task, task ∈ tasks ∨ w.isOver task = true → (tasks.foldl cancel w).isOver task = true := by
  induction tasks generalizing w with
  | nil => exact ⟨rfl, .refl w.hub, fun task h => h.resolve_left List.not_mem_nil⟩
  | cons t tasks ih =>
    obtain ⟨hsenders, hshrinks, hover⟩ := ih (w.cancel t)
    refine ⟨hsenders.trans (by cases t <;> rfl), (shrinks_cancel w t).trans hshrinks, fun task h => ?_⟩
    refine hover task ?_
    rcases h with h | h
    · exact (List.mem_cons.mp h).symm.imp_right fun (heq : task = t) => heq ▸ isOver_cancel_self w task
    · exact .inr (isOver_cancel h t)

theorem senders_shutdown (w : WiredHub) : w.shutdown.senders = w.senders := (foldl_cancel w.tasks w).1

theorem shrinks_shutdown (w : WiredHub) : Shrinks w.hub w.shutdown.hub :=
  (foldl_cancel w.tasks w).2.1.trans (shrinks_of_same rfl rfl)

/-- No call that begins no task brings one back. -/
theorem isOver_perform (hlinked : Linked w) {c : VolumeCall} (hc : c.begins = false)
    (hover : w.isOver task = true) : (w.perform c).isOver task = true := by
  cases c with
  | operate o =>
    cases o with
    | enumerate found => cases hc
    | clear =>
      have hcancelled := (foldl_cancel w.tasks w).2.2 task (.inr hover)
      exact isOver_of_shrinks (v := w.shutdown) (shrinks_of_same rfl rfl) rfl hcancelled
    | _ => exact isOver_of_shrinks (shrinks_of_same rfl rfl) rfl hover
  | mount r => exact isOver_publish (hlinked.withMounted _) hover _
  | unmount id => exact isOver_publish (hlinked.withMounted _) hover _
  | notify e => exact isOver_publish hlinked hover e
  | reset => exact isOver_reset hlinked hover
  | listen => exact isOver_listen hover
  | clear i => exact isOver_of_shrinks (shrinks_clear w.hub i) rfl hover
  | drop i => exact isOver_of_shrinks (shrinks_drop w.hub i) rfl hover
  | stop i => exact isOver_of_shrinks (shrinks_stop w.hub i) rfl hover
  | start found => cases hc
  | connect => cases hc
  | adopt i => cases hc
  | feed events => cases hc

/-! ### Handles -/

/-- Every task that is not finished has a handle. -/
def Kept (w : WiredHub) : Prop := ∀ task, w.isOver task = false → task ∈ w.tasks

theorem Kept.of_over (h : Kept w) (htasks : v.tasks = w.tasks)
    (hover : ∀ task, w.isOver task = true → v.isOver task = true) : Kept v := by
  intro task htask
  rw [htasks]
  exact h task (Bool.eq_false_iff.mpr fun heq => by rw [hover task heq] at htask; cases htask)

/-- When a handle is added, only those of finished tasks are let go. -/
theorem kept_track (h : ∀ t, t ≠ task → w.isOver t = false → t ∈ w.tasks) : Kept (w.track task) := by
  intro t ht
  change w.isOver t = false at ht
  show t ∈ w.tasks.filter _ ++ [task]
  by_cases htask : t = task
  · simp [htask]
  · exact List.mem_append_left _ (List.mem_filter.mpr ⟨h t htask ht, by simp [ht]⟩)

theorem Kept.spawn (h : Kept w) (inbox : Inbox) : Kept (w.spawn inbox) := by
  refine kept_track fun t ht hover => h t ?_
  cases t with
  | enumeration i => exact hover
  | relay i => exact (finished_relay_of_ne w.hub inbox (by simpa using ht)).symm.trans hover

theorem Kept.enumerate (h : Kept w) (found : Except SourceError (List VolumeReport)) : Kept (w.enumerate found) := by
  refine kept_track fun t ht hover => h t ?_
  cases t with
  | relay i => exact hover
  | enumeration i =>
    change ((w.adding ++ [_])[i]?.getD []).isEmpty = false at hover
    rwa [getElem?_append_singleton, if_neg (by simpa using ht)] at hover

/-- After a shutdown every task is over. -/
theorem Kept.isOver_shutdown (h : Kept w) (task : Task) : w.shutdown.isOver task = true := by
  have hover : (w.tasks.foldl cancel w).isOver task = true := by
    refine (foldl_cancel w.tasks w).2.2 task ?_
    cases htask : w.isOver task with
    | true => exact .inr rfl
    | false => exact .inl (h task htask)
  exact isOver_of_shrinks (v := w.shutdown) (shrinks_of_same rfl rfl) rfl hover

/-! ## Turns and calls -/

theorem Linked.perform (h : Linked w) (c : VolumeCall) : Linked (w.perform c) := by
  cases c with
  | operate o =>
    cases o with
    | clear => exact h.shrink (senders_shutdown w) (shrinks_shutdown w)
    | _ => exact h.shrink rfl (shrinks_of_same rfl rfl)
  | mount r => exact (h.withMounted _).publish (.mounted r)
  | unmount id => exact (h.withMounted _).publish (.unmounted id)
  | notify e => exact h.publish e
  | reset => exact h.reset
  | listen => exact h.listen
  | clear i => exact h.shrink rfl (shrinks_clear w.hub i)
  | drop i => exact h.shrink rfl (shrinks_drop w.hub i)
  | start found => exact h.spawn .fresh rfl rfl
  | connect => exact h.spawn .fresh rfl rfl
  | adopt i => exact h.adopt i
  | feed events => exact h.spawn ⟨events, false⟩ (List.append_nil _).symm rfl
  | stop i => exact h.shrink rfl (shrinks_stop w.hub i)

/-- A reader that there was at any time stays one that there was. -/
theorem knows_perform {reader : Reader} (h : w.hub.Knows reader) (c : VolumeCall) :
    (w.perform c).hub.Knows reader := by
  cases c with
  | operate o =>
    cases o with
    | clear => exact (shrinks_shutdown w).known reader h
    | _ => exact (shrinks_of_same rfl rfl : Shrinks w.hub _).known reader h
  | mount r => exact knows_atInboxes ((shrinks_of_same rfl rfl : Shrinks w.hub _).known reader h)
  | unmount id => exact knows_atInboxes ((shrinks_of_same rfl rfl : Shrinks w.hub _).known reader h)
  | notify e => exact knows_atInboxes h
  | reset => exact knows_atInboxes ((shrinks_of_same rfl rfl : Shrinks w.hub _).known reader h)
  | listen => exact knows_listen h
  | clear i => exact (shrinks_clear w.hub i).known reader h
  | drop i => exact (shrinks_drop w.hub i).known reader h
  | start found => exact knows_relay h
  | connect => exact knows_relay h
  | adopt i =>
    show (w.adopt i).hub.Knows reader
    cases hold : w.hub.inbox? (.listener i) with
    | none => rwa [adopt_of_dropped hold]
    | some inbox =>
      rw [hub_adopt hold]
      exact knows_relay ((shrinks_drop w.hub i).known reader h)
  | feed events => exact knows_relay h
  | stop i => exact (shrinks_stop w.hub i).known reader h

theorem Kept.turn (h : Kept w) (task : Task) : Kept (w.turn task) := by
  refine h.of_over ?_ fun t hover => isOver_turn hover task
  cases task with
  | relay i => rfl
  | enumeration i => rcases w.turn_enumeration_cases i with ⟨r, rest, -, hturn⟩ | hturn <;> simp [hturn, withHub]

theorem Kept.perform (hlinked : Linked w) (h : Kept w) (c : VolumeCall) : Kept (w.perform c) := by
  cases c with
  | operate o =>
    cases o with
    | enumerate found => exact h.enumerate found
    | clear =>
      intro task htask
      rw [show (w.perform (.operate .clear)).isOver task = true from h.isOver_shutdown task] at htask
      cases htask
    | _ => exact h.of_over rfl fun task => isOver_perform hlinked rfl
  | start found => exact (Kept.enumerate (w := w.subscribe _) h found).spawn .fresh
  | connect => exact Kept.spawn (w := w.subscribe _) h .fresh
  | adopt i =>
    show Kept (w.adopt i)
    cases hold : w.hub.inbox? (.listener i) with
    | none => rwa [adopt_of_dropped hold]
    | some inbox =>
      rw [adopt_of_listener hold]
      refine Kept.spawn ?_ inbox
      exact h.of_over rfl fun task => isOver_of_shrinks (w := w) (shrinks_drop w.hub i) rfl
  | feed events => exact h.spawn ⟨events, false⟩
  | _ => exact h.of_over rfl fun task => isOver_perform hlinked rfl

theorem linked_empty : Linked .empty :=
  ⟨List.nodup_nil, fun _ hreader => (by cases hreader), fun reader _ hinbox => (by cases reader <;> cases hinbox)⟩

theorem kept_empty : Kept .empty := by
  intro task htask
  cases task <;> cases htask

/-- Whom they must know, the channel knows by a sender, and the table by a handle. -/
structure Sound (w : WiredHub) : Prop where
  linked : Linked w
  kept : Kept w

theorem sound_empty : Sound .empty := ⟨linked_empty, kept_empty⟩

theorem Sound.turn (h : Sound w) (task : Task) : Sound (w.turn task) := ⟨h.linked.turn task, h.kept.turn task⟩

theorem Sound.perform (h : Sound w) (c : VolumeCall) : Sound (w.perform c) :=
  ⟨h.linked.perform c, h.kept.perform h.linked c⟩

theorem Sound.follows {calls : List VolumeCall} (h : Sound w) (hrun : Follows w calls v) : Sound v := by
  induction hrun with
  | start => exact h
  | turn _ task ih => exact ih.turn task
  | call _ _ c ih => exact ih.perform c

end WiredHub

end FileProvider
