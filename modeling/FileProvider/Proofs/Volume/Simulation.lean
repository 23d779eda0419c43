import Mathlib.Data.List.Induction
import FileProvider.Proofs.Volume.Settling
import FileProvider.Proofs.Volume.Shown
import FileProvider.Proofs.Volume.Tasks

/-!
# Wired hubs and hubs

A hub that knows every inbox and every relay itself, and lets everything be done at once, shows the same as a wired
one, which knows them only through senders and handles and takes its turns one by one, if these turns are taken in
one particular order: first the enumerations add what they found, and then each relay in its place applies what
arrived.
-/

set_option autoImplicit false

namespace FileProvider

namespace WiredHub

open VolumeHub

variable {u w v : WiredHub}

/-- The hub of a wired one shows the same as a hub of which every reader has the same inbox. -/
theorem alike_of_inboxes {h h' : VolumeHub} (htable : h.table = h'.table) (hmounted : h.mounted = h'.mounted)
    (hlisteners : h.listeners.length = h'.listeners.length) (hrelays : h.relays.length = h'.relays.length)
    (hinbox : ∀ reader, h.inbox? reader = h'.inbox? reader) : Alike h h' :=
  ⟨htable, hmounted, hlisteners, hrelays, fun i => hinbox (.listener i), fun i => by rw [unread?, unread?, hinbox]⟩

/-- What goes through the senders reaches those whom it should reach. -/
theorem Linked.alike_publish (h : Linked w) (e : VolumeEvent) : Alike (w.publish e).hub (w.hub.publish e) := by
  obtain ⟨htable, hmounted, hlisteners, hrelays⟩ :=
    atInboxes_same (.put e) (w.senders.filter fun reader => (w.hub.inbox? reader).isSome) w.hub
  refine alike_of_inboxes htable hmounted ?_ ?_ fun reader => ?_
  · exact hlisteners.trans (List.length_map _).symm
  · exact hrelays.trans (List.length_map _).symm
  · rw [h.inbox?_publish, VolumeHub.publish, inbox?_withInboxes]

theorem Linked.alike_reset (h : Linked w) : Alike w.reset.hub w.hub.reset := by
  obtain ⟨htable, hmounted, hlisteners, hrelays⟩ :=
    atInboxes_same .cutOff w.senders (w.hub.withMounted fun _ => [])
  refine alike_of_inboxes htable hmounted ?_ ?_ fun reader => ?_
  · exact hlisteners.trans (List.length_map _).symm
  · exact hrelays.trans (List.length_map _).symm
  · rw [h.inbox?_reset, VolumeHub.reset, inbox?_withInboxes, inbox?_withMounted]

/-- Cancelling leaves the channel and the listeners as they are. -/
theorem foldl_cancel_same (tasks : List Task) (w : WiredHub) :
    (tasks.foldl cancel w).hub.mounted = w.hub.mounted ∧
      (tasks.foldl cancel w).hub.listeners = w.hub.listeners ∧
      (tasks.foldl cancel w).hub.relays.length = w.hub.relays.length := by
  induction tasks generalizing w with
  | nil => exact ⟨rfl, rfl, rfl⟩
  | cons task tasks ih =>
    obtain ⟨hmounted, hlisteners, hrelays⟩ := ih (w.cancel task)
    cases task with
    | relay i => exact ⟨hmounted, hlisteners, hrelays.trans (List.length_modify _ _ _)⟩
    | enumeration i => exact ⟨hmounted, hlisteners, hrelays⟩

/-- Cancelling all tasks of which there are handles stops every relay that is not finished. -/
theorem Kept.alike_shutdown (h : Kept w) : Alike w.shutdown.hub w.hub.shutdown := by
  obtain ⟨hmounted, hlisteners, hrelays⟩ := foldl_cancel_same w.tasks w
  refine ⟨rfl, hmounted, congrArg _ hlisteners, hrelays.trans (List.length_map _).symm, fun i => ?_, fun i => ?_⟩
  · show (w.tasks.foldl cancel w).hub.listeners[i]?.join = w.hub.listeners[i]?.join
    rw [hlisteners]
  · have hover : w.shutdown.hub.finished i = true := h.isOver_shutdown (.relay i)
    rw [finished_eq_isNone] at hover
    rw [Option.isNone_iff_eq_none.mp hover, unread?, inbox?_shutdown]
    rfl

/-- Several turns, one after the other. -/
abbrev Turns : WiredHub → WiredHub → Prop := Relation.ReflTransGen fun w v => ∃ task, v = w.turn task

/-- A turn of a hub at work is a turn of one of its tasks. -/
theorem exists_turn {b : BusyHub} (hturn : BusyHub.Turn w.toBusyHub b) : ∃ task, (w.turn task).toBusyHub = b := by
  obtain ⟨⟨hub, adding⟩, senders, tasks⟩ := w
  cases hturn with
  | applied _ _ before after r hr =>
    refine ⟨.relay before.length, ?_⟩
    simp [turn, withHub, advance, hr]
  | added _ before after r rest =>
    refine ⟨.enumeration before.length, ?_⟩
    simp [turn, withHub]

theorem exists_turns {b : BusyHub} (hturns : BusyHub.Turns w.toBusyHub b) :
    ∃ v, Turns w v ∧ v.toBusyHub = b := by
  induction hturns with
  | refl => exact ⟨w, .refl, rfl⟩
  | tail _ hturn ih =>
    obtain ⟨u, hturns, rfl⟩ := ih
    obtain ⟨task, htask⟩ := exists_turn hturn
    exact ⟨u.turn task, hturns.tail ⟨task, rfl⟩, htask⟩

/-- The hub when first everything that was found is added, and then everything that arrived is applied. -/
def completed (w : WiredHub) : VolumeHub := (w.hub.withTable fun t => t.enumerate (.ok w.adding.flatten)).settle

/-- Turns can be taken until everything is done. -/
theorem exists_done (w : WiredHub) : ∃ v, Turns w v ∧ v.Done ∧ v.hub = w.completed := by
  have hadded := BusyHub.turns_flatten w.hub [] w.adding
  obtain ⟨v, hturns, hv⟩ := exists_turns (hadded.trans (BusyHub.turns_settle _ _))
  refine ⟨v, hturns, hv ▸ ⟨pending_drainAll _ _, ?_⟩, congrArg BusyHub.hub hv⟩
  simp

theorem settled_of_done (hdone : w.Done) : w.hub.Settled := by
  intro i inbox hinbox
  obtain ⟨r, hr, rfl⟩ := Option.map_eq_some_iff.mp hinbox
  obtain ⟨hget, hrunning⟩ := Option.filter_eq_some_iff.mp hr
  exact hdone.applied r (List.mem_of_getElem? hget) hrunning

/-! ## One call -/

section

variable {hub : VolumeHub}

/-- Where nothing was found, only what arrived is applied. -/
theorem alike_completed (hnone : w.adding.flatten = []) (halike : Alike w.hub hub) :
    Alike w.completed hub.settle := by
  rw [completed, hnone]
  exact halike.settle

/-- Where nothing has arrived either, nothing is seen to happen. -/
theorem alike_completed_of_settled (hnone : w.adding.flatten = []) (halike : Alike w.hub hub)
    (hsettled : hub.Settled) : Alike w.completed hub :=
  (alike_completed hnone halike).trans hsettled.alike

/-- The last enumeration, the others being through, adds all that it found. -/
theorem completed_of_found {found : Except SourceError (List VolumeReport)} {before : List (List VolumeReport)}
    (hadding : w.adding = before ++ [found.toOption.getD []]) (hbefore : before.flatten = []) :
    w.completed = (w.hub.withTable (·.enumerate found)).settle := by
  rw [completed, hadding, List.flatten_append, hbefore]
  cases found <;> simp [Except.toOption, VolumeTable.enumerate]

end

/-- A shutdown leaves nothing to be added. -/
theorem Kept.adding_shutdown (h : Kept w) : w.shutdown.adding.flatten = [] := by
  refine List.flatten_eq_nil_iff.mpr fun rest hrest => ?_
  obtain ⟨i, hi⟩ := List.mem_iff_getElem?.mp hrest
  have hover := h.isOver_shutdown (.enumeration i)
  rw [isOver, hi] at hover
  exact List.isEmpty_iff.mp hover

/-- Whatever is asked of a wired hub, it shows in the end the same as if everything had been done at once. -/
theorem Sound.alike_perform (h : Sound w) (hdone : w.Done) (c : VolumeCall) :
    Alike (w.perform c).completed (w.hub.perform c) := by
  have hsettled : w.hub.Settled := settled_of_done hdone
  -- Only a start and an enumeration leave something to be added; all else is a matter of the inboxes.
  have hnone : w.adding.flatten = [] := List.flatten_eq_nil_iff.mpr hdone.added
  cases c with
  | operate o =>
    cases o with
    | clear =>
      exact alike_completed_of_settled (w := w.shutdown) h.kept.adding_shutdown h.kept.alike_shutdown
        (settled_shutdown w.hub)
    | enumerate found =>
      have hshrinks : Shrinks w.hub (w.hub.withTable (·.enumerate found)) := shrinks_of_same rfl rfl
      rw [completed_of_found (w := w.perform _) rfl hnone]
      exact (hsettled.shrink hshrinks).alike
    | _ =>
      exact alike_completed_of_settled (w := w.operate _) hnone (.refl _) (hsettled.shrink (shrinks_of_same rfl rfl))
  | mount r => exact alike_completed (w := w.mount r) hnone ((h.linked.withMounted _).alike_publish _)
  | unmount id => exact alike_completed (w := w.unmount id) hnone ((h.linked.withMounted _).alike_publish _)
  | notify e => exact alike_completed (w := w.publish e) hnone (h.linked.alike_publish e)
  | reset => exact alike_completed (w := w.reset) hnone h.linked.alike_reset
  | listen => exact alike_completed_of_settled (w := w.listen) hnone (.refl _) hsettled
  | clear i => exact alike_completed_of_settled hnone (.refl _) (hsettled.shrink (shrinks_clear w.hub i))
  | drop i => exact alike_completed_of_settled hnone (.refl _) (hsettled.shrink (shrinks_drop w.hub i))
  | stop i => exact alike_completed_of_settled hnone (.refl _) (hsettled.shrink (shrinks_stop w.hub i))
  | start found =>
    rw [completed_of_found (w := w.perform _) rfl hnone]
    exact .refl _
  | connect => exact alike_completed (w := w.connect) hnone (.refl _)
  | feed events => exact alike_completed (w := w.spawn ⟨events, false⟩) hnone (.refl _)
  | adopt i =>
    show Alike (w.adopt i).completed (w.hub.adopt i)
    rw [adopt_eq]
    cases hold : w.hub.inbox? (.listener i) with
    | none =>
      rw [adopt_of_dropped hold]
      exact alike_completed_of_settled hnone (.refl _) hsettled
    | some inbox =>
      rw [adopt_of_listener hold]
      exact alike_completed (w := WiredHub.spawn inbox _) hnone (.refl _)

/-- Whatever was asked, turns can be taken until everything is done, and then it shows the same as if everything had
been done at once. -/
theorem exists_alike (h : Sound w) (hdone : w.Done) (c : VolumeCall) :
    ∃ v, Turns (w.perform c) v ∧ v.Done ∧ Alike v.hub (w.hub.perform c) := by
  obtain ⟨v, hturns, hdone', hv⟩ := exists_done (w.perform c)
  exact ⟨v, hturns, hdone', hv ▸ h.alike_perform hdone c⟩

/-! ## Runs -/

theorem Follows.turns {calls : List VolumeCall} (hrun : Follows u calls w) (hturns : Turns w v) :
    Follows u calls v := by
  induction hturns with
  | refl => exact hrun
  | tail _ hturn ih =>
    obtain ⟨task, rfl⟩ := hturn
    exact ih.turn task

theorem Follows.trans {calls later : List VolumeCall} (hfirst : Follows u calls w) (hsecond : Follows w later v) :
    Follows u (calls ++ later) v := by
  induction hsecond with
  | start => rwa [List.append_nil]
  | turn _ task ih => exact ih.turn task
  | call _ hdone c ih => exact List.append_assoc .. ▸ ih.call hdone c

/-- Among the runs that go on with some calls there is one that shows in the end the same as a hub that answers them
one after the other, everything being done at once. -/
theorem exists_follows (h : Sound w) (hdone : w.Done) {hub : VolumeHub} (halike : Alike w.hub hub)
    (calls : List VolumeCall) : ∃ v, Follows w calls v ∧ v.Done ∧ Alike v.hub (hub.performAll calls) := by
  induction calls using List.reverseRec with
  | nil => exact ⟨w, .start, hdone, halike⟩
  | append_singleton calls c ih =>
    obtain ⟨u, hrun, hdone', hshown⟩ := ih
    obtain ⟨v, hturns, hdone'', hnext⟩ := exists_alike (h.follows hrun) hdone' c
    refine ⟨v, (hrun.call hdone' c).turns hturns, hdone'', ?_⟩
    rw [VolumeHub.performAll, List.foldl_append]
    exact hnext.trans (hshown.perform c)

theorem done_empty : WiredHub.empty.Done :=
  ⟨fun _ hr => (by cases hr), fun _ hrest => (by cases hrest)⟩

end WiredHub

end FileProvider
