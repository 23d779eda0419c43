import Mathlib.Data.Set.Insert
import FileProvider.Proofs.Volume.Told

/-!
# The table as a mirror of the channel

A channel and a table each keep a list of volumes, in different ways, and have nothing in common but events. A relay
that is started while the table is empty, and that keeps running, makes the table the mirror of the channel: whenever
nothing is left to be applied, the table holds for each id what the channel was told last. Other relays may apply the
same events long after it. Each of them has before it the end of what was told, so whoever applies the last event
about a volume that is left anywhere applies the last one of all.

A relay that began to apply what has arrived goes on until nothing is left: only one that waits can be stopped. One
that was stopped in between would leave behind an old event that others have long gone past.
-/

set_option autoImplicit false

namespace FileProvider

/-- Whether a call is one that a mirror bears: the channel tells nothing while an enumeration is still adding what it
found, an enumeration finds what is mounted, and none of the relays that are held is stopped. -/
def BusyHub.Bears (b : BusyHub) (held : Set Nat) : VolumeCall → Prop
  | .mount _ | .unmount _ => ∀ rest ∈ b.adding, rest = []
  | .start found => found = .ok b.hub.mounted
  | .stop i => i ∉ held
  | .listen | .clear _ | .drop _ | .connect | .adopt _ => True
  | .operate _ | .notify _ | .reset | .feed _ => False

theorem BusyHub.Bears.onChannel {b : BusyHub} {held : Set Nat} {c : VolumeCall} (hc : b.Bears held c) :
    c.onChannel = true := by
  cases c with
  | notify e => cases hc
  | reset => cases hc
  | feed events => cases hc
  | _ => rfl

namespace WiredHub

open VolumeEvent VolumeHub VolumeReport

variable {w v : WiredHub} {events : List VolumeEvent} {first : Nat} {held : Set Nat}

/-- The hubs that come about from the start of a relay, the first of its number, at an empty table, with turns and
calls in any order. Held are the relays that cannot be stopped: the first one, which is kept running, and those that
have begun to apply what has arrived and not come to its end. -/
inductive Mirroring (first : Nat) : Set Nat → WiredHub → Prop where
  | start {w : WiredHub} (h : Telling w) (hempty : w.table = []) (hadded : ∀ rest ∈ w.adding, rest = [])
      (hfirst : first = w.hub.relays.length) :
      Mirroring first {i | i ≤ first} (w.perform (.start (.ok w.hub.mounted)))
  /-- A relay applies the first event that has arrived for it. -/
  | apply {held : Set Nat} {w : WiredHub} (h : Mirroring first held w) (i : Nat) :
      Mirroring first (insert i held) (w.turn (.relay i))
  /-- An enumeration adds the next volume that it found. -/
  | add {held : Set Nat} {w : WiredHub} (h : Mirroring first held w) (i : Nat) :
      Mirroring first held (w.turn (.enumeration i))
  /-- Relays other than the first wait for more when they have applied all that has arrived. -/
  | wait {held held' : Set Nat} {w : WiredHub} (h : Mirroring first held w)
      (hwait : ∀ i ∈ held, i ∉ held' → i ≠ first ∧
        ∀ inbox, w.hub.inbox? (.relay i) = some inbox → inbox.pending = []) : Mirroring first held' w
  /-- A listener reads the first event that has arrived for it. -/
  | hear {held : Set Nat} {w : WiredHub} (h : Mirroring first held w) (i : Nat) :
      Mirroring first held (w.withHub (·.atInbox .rest (.listener i)))
  | call {held : Set Nat} {w : WiredHub} (h : Mirroring first held w) (c : VolumeCall) (hc : w.Bears held c) :
      Mirroring first held (w.perform c)

/-- Nothing that the relays which are held or an enumeration have still to do is about a volume. -/
structure Still (held : Set Nat) (id : String) (w : WiredHub) : Prop where
  applied : ∀ i ∈ held, ∀ inbox, w.hub.inbox? (.relay i) = some inbox → ∀ e ∈ inbox.pending, e.volumeId ≠ id
  added : ∀ rest ∈ w.adding, ∀ r ∈ rest, r.id ≠ id

/-- The table is on the way to what the channel was told: it is there already for each volume about which nothing is
left to be done. -/
structure Mirror (first : Nat) (held : Set Nat) (events : List VolumeEvent) (w : WiredHub) : Prop
    extends Told events w where
  distinctTable : w.table.Distinct
  adding : ∀ rest ∈ w.adding, ∀ r ∈ rest, r ∈ w.hub.mounted
  firstHeld : first ∈ held
  firstThere : (w.hub.inbox? (.relay first)).isSome = true
  shown : ∀ id, Still held id w → w.table.get? id = (named? w.hub.mounted id).map .ofReport

/-- Neither the table nor the channel changes, and the relays that are held have before them what they had. -/
theorem Mirror.keep (h : Mirror first held events w) (htold : Told events v) (htable : v.table = w.table)
    (hmounted : v.hub.mounted = w.hub.mounted) (hadding : ∀ rest ∈ w.adding, rest ∈ v.adding)
    (hfound : ∀ rest ∈ v.adding, ∀ r ∈ rest, r ∈ v.hub.mounted)
    (hheld : ∀ i ∈ held, ∀ inbox, w.hub.inbox? (.relay i) = some inbox →
      v.hub.inbox? (.relay i) = some inbox) : Mirror first held events v where
  toTold := htold
  distinctTable := htable ▸ h.distinctTable
  adding := hfound
  firstHeld := h.firstHeld
  firstThere := by
    obtain ⟨inbox, hinbox⟩ := Option.isSome_iff_exists.mp h.firstThere
    rw [hheld first h.firstHeld inbox hinbox]
    rfl
  shown id hstill := by
    rw [htable, hmounted]
    refine h.shown id ⟨fun i hi inbox hinbox => ?_, fun rest hrest => hstill.added rest (hadding rest hrest)⟩
    exact hstill.applied i hi inbox (hheld i hi inbox hinbox)

/-- An event is told while no enumeration is at work. It has arrived for the first relay, so something is left to be
done about its volume. -/
theorem Mirror.tell (h : Mirror first held events w) {f : List VolumeReport → List VolumeReport} {e : VolumeEvent}
    (hadded : ∀ rest ∈ w.adding, rest = [])
    (htold : Told (events ++ [e]) ((w.withHub (·.withMounted f)).publish e))
    (hothers : ∀ id, e.volumeId ≠ id → named? (f w.hub.mounted) id = named? w.hub.mounted id) :
    Mirror first held (events ++ [e]) ((w.withHub (·.withMounted f)).publish e) := by
  have hinbox : ∀ reader, ((w.withHub (·.withMounted f)).publish e).hub.inbox? reader
      = (w.hub.inbox? reader).map (Inbox.receive e) := fun reader => by
    rw [(h.linked.withMounted f).inbox?_publish]
    exact congrArg _ (inbox?_withMounted f)
  have hreceive : ∀ reader inbox, w.hub.inbox? reader = some inbox →
      (inbox.receive e).pending = inbox.pending ++ [e] := fun reader inbox hinbox => by
    rw [Inbox.receive, if_pos (h.behind reader inbox hinbox).1]
  have htable : ((w.withHub (·.withMounted f)).publish e).table = w.table := (atInboxes_same _ _ _).1
  have hmounted : ((w.withHub (·.withMounted f)).publish e).hub.mounted = f w.hub.mounted :=
    (atInboxes_same _ _ _).2.1
  obtain ⟨inbox, hfirst⟩ := Option.isSome_iff_exists.mp h.firstThere
  refine ⟨htold, htable ▸ h.distinctTable, fun rest hrest r hr => ?_, h.firstHeld, ?_, fun id hstill => ?_⟩
  · rw [hadded rest hrest] at hr
    cases hr
  · rw [hinbox, hfirst]
    rfl
  · have hrest : ∀ i ∈ held, ∀ inbox, w.hub.inbox? (.relay i) = some inbox →
        ∀ e' ∈ inbox.pending ++ [e], e'.volumeId ≠ id := by
      intro i hi inbox hold
      rw [← hreceive _ inbox hold]
      exact hstill.applied i hi _ (by rw [hinbox, hold]; rfl)
    have he : e.volumeId ≠ id := hrest first h.firstHeld inbox hfirst e (by simp)
    rw [htable, hmounted, hothers id he]
    refine h.shown id ⟨fun i hi inbox hold e' he' => ?_, hstill.added⟩
    exact hrest i hi inbox hold e' (List.mem_append_left _ he')

theorem Mirror.mount (h : Mirror first held events w) (hadded : ∀ rest ∈ w.adding, rest = []) (r : VolumeReport) :
    Mirror first held (events ++ [.mounted r]) (w.mount r) := by
  refine h.tell hadded (h.toTold.mount r) fun id hid => ?_
  change r.id ≠ id at hid
  rw [named?_append_singleton, named?_forget h.distinct, if_neg hid, if_neg hid, Option.or_none]

theorem Mirror.unmount (h : Mirror first held events w) (hadded : ∀ rest ∈ w.adding, rest = []) (gone : String) :
    Mirror first held (events ++ [.unmounted gone]) (w.unmount gone) := by
  refine h.tell hadded (h.toTold.unmount gone) fun id hid => ?_
  change gone ≠ id at hid
  rw [named?_forget h.distinct, if_neg hid]

/-- The more relays are held, the less is said. -/
theorem Mirror.hold {held' : Set Nat} (h : Mirror first held events w) (hheld : held ⊆ held') :
    Mirror first held' events w where
  toTold := h.toTold
  distinctTable := h.distinctTable
  adding := h.adding
  firstHeld := hheld h.firstHeld
  firstThere := h.firstThere
  shown id hstill := h.shown id ⟨fun i hi => hstill.applied i (hheld hi), hstill.added⟩

/-- A relay that has applied all that has arrived need not be held. -/
theorem Mirror.wait {held' : Set Nat} (h : Mirror first held events w)
    (hwait : ∀ i ∈ held, i ∉ held' → i ≠ first ∧
      ∀ inbox, w.hub.inbox? (.relay i) = some inbox → inbox.pending = []) : Mirror first held' events w where
  toTold := h.toTold
  distinctTable := h.distinctTable
  adding := h.adding
  firstHeld := by
    by_contra hnot
    exact (hwait first h.firstHeld hnot).1 rfl
  firstThere := h.firstThere
  shown id hstill := by
    refine h.shown id ⟨fun i hi inbox hinbox => ?_, hstill.added⟩
    by_cases hheld : i ∈ held'
    · exact hstill.applied i hheld inbox hinbox
    · simp [(hwait i hi hheld).2 inbox hinbox]

/-- A relay applies its next event: where that was the last thing to be done about a volume, it was also the last
event about it of all. -/
theorem Mirror.apply {i : Nat} (h : Mirror first held events w) (hi : i ∈ held) :
    Mirror first held events (w.turn (.relay i)) := by
  rcases w.hub.advance_cases i with ⟨inbox, e, rest, hold, hpending, htable⟩ | hsame
  · change (w.turn (.relay i)).table = w.table.apply e at htable
    have hmounted := mounted_turn w (.relay i)
    have hinbox : ∀ j, (w.turn (.relay i)).hub.inbox? (.relay j)
        = if j = i then (w.hub.inbox? (.relay j)).map Inbox.rest else w.hub.inbox? (.relay j) := fun j => by
      rw [turn, withHub, inbox?_advance]
      simp only [Reader.relay.injEq]
    have hrest : (w.turn (.relay i)).hub.inbox? (.relay i) = some ⟨rest, inbox.connected⟩ := by
      rw [hinbox, if_pos rfl, hold, Option.map_some, Inbox.rest, hpending, List.tail_cons]
    refine ⟨h.toTold.turn (.relay i), ?_, hmounted ▸ h.adding, h.firstHeld, ?_, fun id hstill => ?_⟩
    · rw [htable]
      exact VolumeTable.Distinct.apply h.distinctTable e
    · rw [hinbox]
      split
      · rw [Option.isSome_map]
        exact h.firstThere
      · exact h.firstThere
    · have hlater : ∀ e ∈ rest, e.volumeId ≠ id := hstill.applied i hi _ hrest
      rw [htable, VolumeTable.get?_apply, hmounted]
      by_cases he : e.volumeId = id
      · -- What this relay had before it is the end of all the events, and `e` is the last one there about `id`.
        have hlast : lastAbout id events = some e := by
          refine lastAbout_of_suffix (h.behind _ inbox hold).2 ?_
          rw [hpending, lastAbout_cons, lastAbout_eq_none_iff.mpr hlater, Option.none_or, if_pos he]
        rw [if_pos he, h.last, hlast, Option.bind_some]
      · rw [if_neg he]
        refine h.shown id ⟨fun j hj other hother => ?_, hstill.added⟩
        by_cases hij : j = i
        · subst hij
          cases hold.symm.trans hother
          rw [hpending]
          exact List.forall_mem_cons.mpr ⟨he, hlater⟩
        · exact hstill.applied j hj other (by rw [hinbox, if_neg hij, hother])
  · rwa [show w.turn (.relay i) = w from congrArg (fun hub => w.withHub fun _ => hub) hsame]

/-- An enumeration adds its next volume, which is mounted since nothing was told in the meantime. -/
theorem Mirror.add (h : Mirror first held events w) (i : Nat) :
    Mirror first held events (w.turn (.enumeration i)) := by
  have htold := h.toTold.turn (.enumeration i)
  rcases w.turn_enumeration_cases i with ⟨r, rest, hi, hturn⟩ | hturn
  · rw [hturn] at htold ⊢
    have hfound := h.adding _ (List.mem_of_getElem? hi)
    have hadding : ∀ found ∈ w.adding.set i rest, found ∈ w.adding ∨ found = rest :=
      fun found hmem => List.mem_or_eq_of_mem_set hmem
    refine ⟨htold, VolumeTable.Distinct.add h.distinctTable _, fun found hmem r' hr' => ?_, h.firstHeld, h.firstThere,
      fun id hstill => ?_⟩
    · rcases hadding found hmem with hmem | rfl
      · exact h.adding found hmem r' hr'
      · exact hfound r' (List.mem_cons_of_mem r hr')
    · show (w.table.add (.ofReport r)).get? id = (named? w.hub.mounted id).map .ofReport
      rw [VolumeTable.get?_add]
      by_cases hid : r.id = id
      · subst hid
        rw [if_pos (show (Volume.ofReport r).id = r.id from rfl),
          named?_of_mem h.distinct (hfound r List.mem_cons_self), Option.map_some]
      · rw [if_neg (show (Volume.ofReport r).id ≠ id from hid)]
        refine h.shown id ⟨hstill.applied, fun found hmem => ?_⟩
        obtain ⟨j, hj⟩ := List.mem_iff_getElem?.mp hmem
        by_cases hij : j = i
        · subst hij
          cases hi.symm.trans hj
          have hset : (w.adding.set j rest)[j]? = some rest :=
            List.getElem?_set_self (List.getElem?_eq_some_iff.mp hj).1
          exact List.forall_mem_cons.mpr ⟨hid, hstill.added rest (List.mem_of_getElem? hset)⟩
        · have hset : (w.adding.set i rest)[j]? = some found := (List.getElem?_set_ne (Ne.symm hij)).trans hj
          exact hstill.added found (List.mem_of_getElem? hset)
  · rwa [hturn]

/-! ## Runs -/

/-- When a relay is started at an empty table, nothing is shown yet, and everything that is mounted is still to be
added. -/
theorem Told.mirror_start (h : Told events w) (hempty : w.table = []) (hadded : ∀ rest ∈ w.adding, rest = []) :
    Mirror w.hub.relays.length {i | i ≤ w.hub.relays.length} events
      (w.perform (.start (.ok w.hub.mounted))) := by
  have hadding : (w.perform (.start (.ok w.hub.mounted))).adding = w.adding ++ [w.hub.mounted] := rfl
  refine ⟨h.perform_of_silent rfl rfl, hempty ▸ List.nodup_nil, ?_, Nat.le_refl _, ?_, fun id hstill => ?_⟩
  · rw [hadding, List.forall_mem_append, List.forall_mem_singleton]
    exact ⟨fun rest hrest => by simp [hadded rest hrest], fun _ => id⟩
  · show ((w.hub.relay .fresh).inbox? _).isSome = true
    rw [inbox?_relay, if_pos rfl]
    rfl
  · have hnone : named? w.hub.mounted id = none :=
      named?_eq_none_iff.mpr (hstill.added _ (hadding ▸ List.mem_append_right _ List.mem_cons_self))
    show w.table.get? id = _
    rw [hempty, show (w.perform _).hub.mounted = w.hub.mounted from rfl, hnone]
    rfl

/-- A relay that is started has a number that none had before. -/
theorem inbox?_relay_of_some {hub : VolumeHub} {inbox old : Inbox} {i : Nat}
    (hold : hub.inbox? (.relay i) = some old) : (hub.relay inbox).inbox? (.relay i) = some old := by
  have hlt : i < hub.relays.length := knows_of_inbox? hold
  rwa [inbox?_relay, if_neg (by simpa using Nat.ne_of_lt hlt)]

/-- A call that publishes nothing leaves the table, the channel and the relays that are held as they are. -/
theorem Mirror.perform_of_silent (h : Mirror first held events w) {c : VolumeCall} (hc : w.Bears held c)
    (hsilent : c.published = []) : Mirror first held events (w.perform c) := by
  have htold := h.toTold.perform_of_silent hc.onChannel hsilent
  cases c with
  | mount r => cases hsilent
  | unmount id => cases hsilent
  | operate o => cases hc
  | notify e => cases hc
  | reset => cases hc
  | feed events => cases hc
  | listen => exact h.keep htold rfl rfl (fun _ => id) h.adding fun _ _ _ hold => hold
  | clear i => exact h.keep htold rfl rfl (fun _ => id) h.adding fun _ _ _ hold => hold
  | drop i => exact h.keep htold rfl rfl (fun _ => id) h.adding fun _ _ _ hold => hold
  | stop i =>
    refine h.keep htold rfl rfl (fun _ => id) h.adding fun j hj _ hold => ?_
    show (w.hub.stop i).inbox? (.relay j) = _
    have hne : j ≠ i := fun heq => hc (heq ▸ hj)
    rwa [inbox?_stop, if_neg (by simpa using hne)]
  | connect => exact h.keep htold rfl rfl (fun _ => id) h.adding fun _ _ _ hold => inbox?_relay_of_some hold
  | start found =>
    subst hc
    refine h.keep htold rfl rfl (fun rest => List.mem_append_left _) ?_ fun _ _ _ hold => inbox?_relay_of_some hold
    show ∀ rest ∈ w.adding ++ [w.hub.mounted], ∀ r ∈ rest, r ∈ w.hub.mounted
    rw [List.forall_mem_append, List.forall_mem_singleton]
    exact ⟨h.adding, fun _ => id⟩
  | adopt i =>
    change Told events (w.adopt i) at htold
    show Mirror first held events (w.adopt i)
    cases hlistener : w.hub.inbox? (.listener i) with
    | none => rwa [adopt_of_dropped hlistener]
    | some inbox =>
      rw [adopt_of_listener hlistener] at htold ⊢
      refine h.keep htold rfl rfl (fun _ => id) h.adding fun j _ old hold => ?_
      have hdropped : (w.hub.drop i).inbox? (.relay j) = some old := hold
      exact inbox?_relay_of_some hdropped

theorem Mirror.perform (h : Mirror first held events w) {c : VolumeCall} (hc : w.Bears held c) :
    Mirror first held (events ++ c.published) (w.perform c) := by
  cases c with
  | mount r => exact h.mount hc r
  | unmount id => exact h.unmount hc id
  | notify e => cases hc
  | _ =>
    show Mirror first held (events ++ []) _
    rw [List.append_nil]
    exact h.perform_of_silent hc rfl

/-- A listener that reads an event has it no more, and nothing else changes. -/
theorem Mirror.hear (h : Mirror first held events w) (i : Nat) :
    Mirror first held events (w.withHub (·.atInbox .rest (.listener i))) := by
  have hshrinks : Shrinks w.hub (w.hub.atInbox .rest (.listener i)) :=
    shrinks_of_read (fun _ => .mono (by simp [atInbox]) (Nat.le_refl _)) (fun _ => inbox?_atInbox)
      fun inbox => ⟨rfl, List.tail_suffix inbox.pending⟩
  exact h.keep (h.toTold.shrink rfl rfl hshrinks) rfl rfl (fun _ => id) h.adding fun _ _ _ hold => hold

theorem Mirroring.mirror (h : Mirroring first held w) : ∃ events, Mirror first held events w := by
  induction h with
  | start h hempty hadded hfirst =>
    obtain ⟨events, htold⟩ := h.told
    exact ⟨events, hfirst ▸ htold.mirror_start hempty hadded⟩
  | apply _ i ih =>
    obtain ⟨events, hmirror⟩ := ih
    exact ⟨events, (hmirror.hold (Set.subset_insert i _)).apply (Set.mem_insert i _)⟩
  | add _ i ih =>
    obtain ⟨events, hmirror⟩ := ih
    exact ⟨events, hmirror.add i⟩
  | wait _ hwait ih =>
    obtain ⟨events, hmirror⟩ := ih
    exact ⟨events, hmirror.wait hwait⟩
  | hear _ i ih =>
    obtain ⟨events, hmirror⟩ := ih
    exact ⟨events, hmirror.hear i⟩
  | call _ c hc ih =>
    obtain ⟨events, hmirror⟩ := ih
    exact ⟨_, hmirror.perform hc⟩

/-- When nothing is left to be done the table shows what the channel was told. -/
theorem Mirror.agrees (h : Mirror first held events w) (hdone : w.Done) : w.table.Agrees w.hub.mounted := by
  refine fun id => h.shown id ⟨fun i _ inbox hinbox => ?_, fun rest hrest => ?_⟩
  · simp [settled_of_done hdone i inbox hinbox]
  · simp [hdone.added rest hrest]

/-- From the start of a relay at an empty table on, through turns and calls in any order: no volume is twice in the
channel's list or in the table, and whenever nothing is left to be done, the table holds for each id the record of
what the channel was told last, or nothing if that is not mounted. -/
theorem Mirroring.mirrors (h : Mirroring first held w) :
    (w.hub.mounted.map VolumeReport.id).Nodup ∧ w.table.Distinct ∧
      (w.Done → ∀ id, w.table.get? id = (named? w.hub.mounted id).map .ofReport) := by
  obtain ⟨events, hmirror⟩ := h.mirror
  exact ⟨hmirror.distinct, hmirror.distinctTable, fun hdone => hmirror.agrees hdone⟩

/-- A card is there from the start. A second relay is connected, a disk is mounted and the card unmounted, and the
second relay mounts the disk once more after the first has gone past all of it; then it is stopped. The table shows
the disk alone. -/
theorem Mirroring.mirrors_disk : ∃ w : WiredHub, Mirroring 0 {0} w ∧ w.Done ∧
    w.hub.mounted.map VolumeReport.id = ["disk"] ∧ w.hub.finished 1 = true ∧
    (w.hub.mounted.map VolumeReport.id).Nodup ∧ w.table.Distinct ∧
    ∀ id, w.table.get? id = (named? w.hub.mounted id).map .ofReport := by
  obtain ⟨w, hrun, hdone, hmounted, hfinished⟩ : ∃ w : WiredHub, Mirroring 0 {0} w ∧ w.Done ∧
      w.hub.mounted.map VolumeReport.id = ["disk"] ∧ w.hub.finished 1 = true := by
    have hcard := Telling.empty.call (.mount ⟨"card", "uuid", "/mnt/card"⟩) rfl
    have hstart : Mirroring 0 _ _ := .start hcard rfl (by decide) rfl
    have hconnect := (hstart.add 0).call .connect trivial
    have hdisk := hconnect.call (.mount ⟨"disk", "uuid", "/mnt/disk"⟩)
      (show ∀ rest ∈ BusyHub.adding _, rest = [] by decide)
    have hgone := hdisk.call (.unmount "card") (show ∀ rest ∈ BusyHub.adding _, rest = [] by decide)
    have hpast := (((hgone.apply 0).apply 0).apply 1).apply 1
    have hwait : Mirroring 0 {0} _ := hpast.wait fun i hi hother => by
      have hone : i = 1 := by
        simp at hi hother
        omega
      subst hone
      refine ⟨by decide, fun inbox hinbox => ?_⟩
      rw [show VolumeHub.inbox? _ (.relay 1) = some ⟨[], true⟩ by decide +kernel] at hinbox
      cases hinbox
      rfl
    refine ⟨_, hwait.call (.stop 1) ?_, ⟨?_, ?_⟩, ?_, ?_⟩
    · exact fun h => by cases h
    all_goals decide +kernel
  obtain ⟨hids, htable, hagrees⟩ := hrun.mirrors
  exact ⟨w, hrun, hdone, hmounted, hfinished, hids, htable, hagrees hdone⟩

/-! ## Everything at once -/

theorem Follows.telling {calls : List VolumeCall} (hrun : Follows w calls v) (h : Telling w)
    (hcalls : ∀ c ∈ calls, c.onChannel = true) : Telling v := by
  induction hrun with
  | start => exact h
  | turn _ task ih => exact (ih hcalls).turn task
  | call _ _ c ih =>
    rw [List.forall_mem_append, List.forall_mem_singleton] at hcalls
    exact (ih hcalls.1).call c hcalls.2

theorem Mirroring.turns (h : Mirroring first held w) (hturns : Turns w v) : ∃ held, Mirroring first held v := by
  induction hturns with
  | refl => exact ⟨held, h⟩
  | tail _ hturn ih =>
    obtain ⟨held, hmirroring⟩ := ih
    obtain ⟨task, rfl⟩ := hturn
    cases task with
    | relay i => exact ⟨_, hmirroring.apply i⟩
    | enumeration i => exact ⟨held, hmirroring.add i⟩

/-- When nothing is left to be done only the first relay is held. -/
theorem Mirroring.turns_done (h : Mirroring first held w) (hturns : Turns w v) (hdone : v.Done) :
    Mirroring first {first} v := by
  obtain ⟨held, hmirroring⟩ := h.turns hturns
  exact hmirroring.wait fun i _ hi => ⟨hi, settled_of_done hdone i⟩

end WiredHub

namespace VolumeHub

open WiredHub

/-- Calls one after the other, each of which a mirror bears. -/
def BearsAll (first : Nat) : VolumeHub → List VolumeCall → Prop
  | _, [] => True
  | h, c :: calls => BusyHub.Bears ⟨h, []⟩ {first} c ∧ (h.perform c).BearsAll first calls

/-- A hub that lets everything be done at once goes through a part of what wired ones go through. -/
theorem agrees_performAll_of_alike {w : WiredHub} {h : VolumeHub} {first : Nat} {calls : List VolumeCall}
    (hmirroring : Mirroring first {first} w) (hsound : Sound w) (hdone : w.Done)
    (halike : Alike w.hub h) (hcalls : h.BearsAll first calls) :
    (h.performAll calls).table.Agrees (h.performAll calls).mounted := by
  induction calls generalizing w h with
  | nil =>
    obtain ⟨events, hmirror⟩ := hmirroring.mirror
    exact halike.table ▸ halike.mounted ▸ hmirror.agrees hdone
  | cons c calls ih =>
    obtain ⟨hc, hcalls⟩ := hcalls
    have hbears : w.Bears {first} c := by
      cases c with
      | mount r => exact hdone.added
      | unmount id => exact hdone.added
      | start found => exact hc.trans (congrArg _ halike.mounted.symm)
      | _ => exact hc
    obtain ⟨v, hturns, hdone', hshown⟩ := exists_alike hsound hdone c
    have hsound' := (hsound.perform c).follows (Follows.start.turns hturns)
    exact ih ((hmirroring.call c hbears).turns_done hturns hdone') hsound' hdone'
      (hshown.trans (halike.perform c)) hcalls

/-- The same is true of a hub that lets everything be done at once. -/
theorem agrees_performAll {before calls : List VolumeCall} {h : VolumeHub} (hh : empty.performAll before = h)
    (hbefore : ∀ c ∈ before, c.onChannel = true) (hempty : h.table = [])
    (hcalls : (h.perform (.start (.ok h.mounted))).BearsAll h.relays.length calls) :
    ((h.perform (.start (.ok h.mounted))).performAll calls).table.Agrees
      ((h.perform (.start (.ok h.mounted))).performAll calls).mounted := by
  obtain ⟨w, hrun, hdone, halike⟩ := exists_follows sound_empty done_empty (.refl empty) before
  rw [hh] at halike
  have hsound := sound_empty.follows hrun
  rw [← halike.mounted] at hcalls ⊢
  rw [← halike.relays] at hcalls
  have hstart := Mirroring.start (hrun.telling .empty hbefore) (halike.table.trans hempty) hdone.added rfl
  obtain ⟨v, hturns, hdone', hshown⟩ := exists_alike hsound hdone (.start (.ok w.hub.mounted))
  have hsound' := (hsound.perform _).follows (Follows.start.turns hturns)
  exact agrees_performAll_of_alike (hstart.turns_done hturns hdone') hsound' hdone'
    (hshown.trans (halike.perform _)) hcalls

end VolumeHub

end FileProvider
