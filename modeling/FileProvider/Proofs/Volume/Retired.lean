import FileProvider.Proofs.Volume.Simulation

/-!
# Relays that are done for good

A relay comes to its end when it is stopped, when the table is shut down, or when its channel is gone and it has
applied all that was left. None of this is written down in one place: a stopped relay may still have a sender, one
that ran out has no handle any more. But a finished relay has nothing to apply and nothing can reach it, and no
call brings it back. After a shutdown nothing is at work at all, so the table stays empty until something is put
into it or a new task begins.
-/

set_option autoImplicit false

namespace FileProvider

/-- Whether a call may bring a volume into the table: it puts one there, or it begins a task. -/
def VolumeCall.refills : VolumeCall → Bool
  | .operate (.add _) => true
  | .operate (.apply _) => true
  | c => c.begins

namespace WiredHub

open VolumeHub

variable {w u v : WiredHub} {calls : List VolumeCall} {i : Nat}

/-! ## A finished relay -/

/-- The relay was started, and it is finished. -/
structure Retired (w : WiredHub) (i : Nat) : Prop where
  started : i < w.hub.relays.length
  finished : w.hub.finished i = true

/-- A retired relay does nothing when it has a turn. -/
theorem Retired.turn_self (h : Retired w i) : w.turn (.relay i) = w :=
  congrArg (fun hub => w.withHub fun _ => hub) (advance_of_finished h.finished)

theorem Retired.turn (h : Retired w i) (task : Task) : Retired (w.turn task) i :=
  have hover : w.isOver (.relay i) = true := h.finished
  ⟨(shrinks_turn w task).known (.relay i) h.started, isOver_turn hover task⟩

/-- Another relay that is started leaves it as it is. -/
theorem Retired.relay {hub : VolumeHub} {inbox : Inbox} (hstarted : i < hub.relays.length)
    (hfinished : hub.finished i = true) (hv : v.hub = hub.relay inbox) : Retired v i := by
  rw [← finished_relay_of_ne hub inbox (Nat.ne_of_lt hstarted)] at hfinished
  have hknows : hub.Knows (.relay i) := hstarted
  have hknows' : (hub.relay inbox).Knows (.relay i) := knows_relay hknows
  exact ⟨hv ▸ hknows', hv ▸ hfinished⟩

/-- No call brings a retired relay back. -/
theorem Retired.perform (hlinked : Linked w) (h : Retired w i) (c : VolumeCall) : Retired (w.perform c) i := by
  have hknows : w.hub.Knows (.relay i) := h.started
  have hstarted : i < (w.perform c).hub.relays.length := knows_perform hknows c
  have hover : w.isOver (.relay i) = true := h.finished
  have hkeeps : c.begins = false → Retired (w.perform c) i := fun hc =>
    ⟨hstarted, isOver_perform hlinked hc hover⟩
  cases c with
  | operate o =>
    cases o with
    | enumerate found => exact ⟨hstarted, h.finished⟩
    | _ => exact hkeeps rfl
  | start found => exact .relay h.started h.finished rfl
  | connect => exact .relay h.started h.finished rfl
  | feed events => exact .relay h.started h.finished rfl
  | adopt j =>
    show Retired (w.adopt j) i
    cases hold : w.hub.inbox? (.listener j) with
    | none => rwa [adopt_of_dropped hold]
    | some inbox =>
      have hdropped := shrinks_drop w.hub j
      exact .relay (hdropped.known (.relay i) h.started) (hdropped.finished h.finished) (hub_adopt hold)
  | _ => exact hkeeps rfl

theorem Retired.follows (hsound : Sound u) (h : Retired u i) (hrun : Follows u calls v) :
    Retired v i := by
  induction hrun with
  | start => exact h
  | turn _ task ih => exact ih.turn task
  | call hrun _ c ih => exact ih.perform (hsound.follows hrun).linked c

/-! ## Nothing at work -/

/-- The table is empty and every task is finished. -/
structure Idle (w : WiredHub) : Prop where
  empty : w.table = []
  finished : ∀ task, w.isOver task = true

theorem Idle.turn (h : Idle w) (task : Task) : Idle (w.turn task) := by
  have hsame : w.turn task = w := by
    cases task with
    | relay i => exact congrArg (fun hub => w.withHub fun _ => hub) (advance_of_finished (h.finished (.relay i)))
    | enumeration i =>
      rcases w.turn_enumeration_cases i with ⟨r, rest, hi, -⟩ | hsame
      · have hover := h.finished (.enumeration i)
        rw [isOver, hi] at hover
        cases hover
      · exact hsame
  rwa [hsame]

/-- A call that brings no volume leaves an idle hub idle. -/
theorem Idle.perform (hlinked : Linked w) (h : Idle w) {c : VolumeCall} (hc : c.refills = false) :
    Idle (w.perform c) := by
  have hover : c.begins = false → ∀ task, (w.perform c).isOver task = true := fun hbegins task =>
    isOver_perform hlinked hbegins (h.finished task)
  cases c with
  | operate o =>
    cases o with
    | remove id => exact ⟨by show w.hub.table.remove id = []; rw [show w.hub.table = [] from h.empty]; rfl, hover rfl⟩
    | clear => exact ⟨rfl, hover rfl⟩
    | add v => cases hc
    | apply e => cases hc
    | enumerate found => cases hc
  | mount r => exact ⟨(atInboxes_same _ _ _).1.trans h.empty, hover rfl⟩
  | unmount id => exact ⟨(atInboxes_same _ _ _).1.trans h.empty, hover rfl⟩
  | notify e => exact ⟨(atInboxes_same _ _ _).1.trans h.empty, hover rfl⟩
  | reset => exact ⟨(atInboxes_same _ _ _).1.trans h.empty, hover rfl⟩
  | start found => cases hc
  | connect => cases hc
  | adopt i => cases hc
  | feed events => cases hc
  | _ => exact ⟨h.empty, hover rfl⟩

theorem Idle.follows (hsound : Sound u) (h : Idle u) (hrun : Follows u calls v)
    (hcalls : ∀ c ∈ calls, c.refills = false) : Idle v := by
  induction hrun with
  | start => exact h
  | turn _ task ih => exact (ih hcalls).turn task
  | call hrun _ c ih =>
    rw [List.forall_mem_append, List.forall_mem_singleton] at hcalls
    exact (ih hcalls.1).perform (hsound.follows hrun).linked hcalls.2

/-! ## How relays end -/

/-- What ends a relay when all work is done: it is stopped, the table is shut down, or its channel is gone and
nothing is left in its inbox. -/
inductive Retires (w : WiredHub) (i : Nat) : WiredHub → Prop where
  | stopped (hdone : w.Done) : Retires w i (w.perform (.stop i))
  | shutdown (hdone : w.Done) : Retires w i (w.perform (.operate .clear))
  | drained (hdone : w.Done) (r : Relay) (hr : w.hub.relays[i]? = some r) (hpending : r.inbox.pending = [])
      (hclosed : r.inbox.connected = false) : Retires w i w

theorem Retires.retired (hkept : Kept w) (hi : i < w.hub.relays.length) (h : Retires w i u) : Retired u i := by
  have hknows : w.hub.Knows (.relay i) := hi
  cases h with
  | stopped hdone => exact ⟨knows_perform hknows _, isOver_cancel_self w (.relay i)⟩
  | shutdown hdone => exact ⟨knows_perform hknows _, hkept.isOver_shutdown (.relay i)⟩
  | drained hdone r hr hpending hclosed =>
    refine ⟨hi, ?_⟩
    rw [finished, hr]
    simp [Relay.finished, hpending, hclosed]

theorem Retires.sound (hsound : Sound w) (h : Retires w i u) : Sound u := by
  cases h with
  | stopped _ => exact hsound.perform _
  | shutdown _ => exact hsound.perform _
  | drained => exact hsound

/-- After a shutdown nothing is at work. -/
theorem Kept.idle_shutdown (h : Kept w) : Idle (w.perform (.operate .clear)) := ⟨rfl, h.isOver_shutdown⟩

theorem Reachable.sound (h : w.Reachable) : Sound w := by
  obtain ⟨calls, hrun⟩ := h
  exact sound_empty.follows hrun

/-- A relay that was stopped, that there was when the table was shut down, or whose channel was gone and whose
inbox was empty, is finished from then on, and its turns change nothing. After a shutdown the table stays empty as
long as nothing is put into it and no task begins. -/
theorem Reachable.retires (h : w.Reachable) :
    (∀ i < w.hub.relays.length, ∀ u, Retires w i u → ∀ calls v, Follows u calls v →
        v.hub.finished i = true ∧ v.turn (.relay i) = v) ∧
      (w.Done → ∀ calls v, Follows (w.perform (.operate .clear)) calls v →
        (∀ c ∈ calls, c.refills = false) → v.table = []) := by
  have hsound := h.sound
  constructor
  · intro i hi u hretires calls v hrun
    have hretired := (hretires.retired hsound.kept hi).follows (hretires.sound hsound) hrun
    exact ⟨hretired.finished, hretired.turn_self⟩
  · intro _ calls v hrun hcalls
    exact (hsound.kept.idle_shutdown.follows (hsound.perform _) hrun hcalls).empty

/-- Three relays come to their end, one in each way: the second has nothing to apply when it begins, the third is
stopped, and the first is there at the shutdown of a table with a volume. What is mounted later reaches none of
them. -/
theorem Reachable.retires_three : ∃ w v : WiredHub,
    w.Reachable ∧ w.table = [.ofReport ⟨"card", "uuid", "/mnt/card"⟩] ∧ w.hub.relays.length = 3 ∧
      (w.perform (.stop 2)).hub.finished 2 = true ∧ w.hub.finished 1 = true ∧
      Follows (w.perform (.operate .clear)) [.mount ⟨"disk", "uuid", "/mnt/disk"⟩] v ∧
      v.hub.finished 0 = true ∧ v.turn (.relay 0) = v ∧ v.table = [] ∧
      v.hub.mounted.map VolumeReport.id = ["card", "disk"] := by
  obtain ⟨w, hreachable, htable, hlength, hdrained, hdone, hdown, hmounted⟩ : ∃ w : WiredHub, w.Reachable ∧
      w.table = [.ofReport ⟨"card", "uuid", "/mnt/card"⟩] ∧ w.hub.relays.length = 3 ∧
      w.hub.relays[1]? = some ⟨⟨[], false⟩, true⟩ ∧ w.Done ∧ (w.perform (.operate .clear)).Done ∧
      (((w.perform (.operate .clear)).perform (.mount ⟨"disk", "uuid", "/mnt/disk"⟩)).hub.mounted.map
        VolumeReport.id) = ["card", "disk"] := by
    have hstart := (Follows.start (a := .empty)).call done_empty (.start (.ok []))
    have hfeed := hstart.call ⟨by decide, by decide⟩ (.feed [])
    have hconnect := hfeed.call ⟨by decide, by decide⟩ .connect
    have hmount := hconnect.call ⟨by decide, by decide⟩ (.mount ⟨"card", "uuid", "/mnt/card"⟩)
    refine ⟨_, ⟨_, (hmount.turn (.relay 0)).turn (.relay 2)⟩, ?_, ?_, ?_, ⟨?_, ?_⟩, ⟨?_, ?_⟩, ?_⟩ <;>
      decide +kernel
  obtain ⟨hretires, hempty⟩ := hreachable.retires
  have hrun := (Follows.start (a := w.perform (.operate .clear))).call hdown
    (.mount ⟨"disk", "uuid", "/mnt/disk"⟩)
  obtain ⟨hfinished, hturn⟩ := hretires 0 (by simp [hlength]) _ (.shutdown hdone) _ _ hrun
  have hstopped := hretires 2 (by simp [hlength]) _ (.stopped hdone) _ _ .start
  have hclosed := hretires 1 (by simp [hlength]) _ (.drained hdone _ hdrained rfl rfl) _ _ .start
  exact ⟨w, _, hreachable, htable, hlength, hstopped.1, hclosed.1, hrun, hfinished, hturn,
    hempty hdone _ _ hrun (by decide), hmounted⟩

end WiredHub

open WiredHub in
/-- The same is true of a hub that lets everything be done at once. -/
theorem VolumeHub.performAll_retires (before after : List VolumeCall) {i : Nat}
    (hi : i < (empty.performAll before).relays.length) :
    (((empty.performAll before).perform (.stop i)).performAll after).finished i = true ∧
      (((empty.performAll before).perform (.operate .clear)).performAll after).finished i = true ∧
      ((empty.performAll before).finished i = true → ((empty.performAll before).performAll after).finished i = true) ∧
      ((∀ c ∈ after, c.refills = false) →
        (((empty.performAll before).perform (.operate .clear)).performAll after).table = []) := by
  obtain ⟨w, hrun, hdone, halike⟩ := exists_follows sound_empty done_empty (.refl empty) before
  have hsound := sound_empty.follows hrun
  rw [← halike.relays] at hi
  have hcall : ∀ c, ∃ v, Follows (w.perform c) after v ∧
      Alike v.hub (((empty.performAll before).perform c).performAll after) := by
    intro c
    obtain ⟨u, hturns, hdone', hshown⟩ := exists_alike hsound hdone c
    have hsound' := (hsound.perform c).follows (Follows.start.turns hturns)
    obtain ⟨v, hafter, -, hlast⟩ := exists_follows hsound' hdone' (hshown.trans (halike.perform c)) after
    exact ⟨v, (Follows.start.turns hturns).trans hafter, hlast⟩
  refine ⟨?_, ?_, fun hfinished => ?_, fun hafter => ?_⟩
  · obtain ⟨v, hrun', hlast⟩ := hcall (.stop i)
    rw [← hlast.finished]
    exact (((Retires.stopped hdone).retired hsound.kept hi).follows (hsound.perform _) hrun').finished
  · obtain ⟨v, hrun', hlast⟩ := hcall (.operate .clear)
    rw [← hlast.finished]
    exact (((Retires.shutdown hdone).retired hsound.kept hi).follows (hsound.perform _) hrun').finished
  · obtain ⟨v, hrun', -, hlast⟩ := exists_follows hsound hdone halike after
    rw [← hlast.finished]
    exact (Retired.follows hsound ⟨hi, (halike.finished i).trans hfinished⟩ hrun').finished
  · obtain ⟨v, hrun', hlast⟩ := hcall (.operate .clear)
    rw [← hlast.table]
    exact (hsound.kept.idle_shutdown.follows (hsound.perform _) hrun' hafter).empty

end FileProvider
