import FileProvider.Proofs.Volume.Background
import FileProvider.Proofs.Volume.Settling

/-!
# What is delivered in the end

However far relays lag behind each other, once all of them are done the table holds what it would hold if
every event had been applied once, in order. If an enumeration was going on meanwhile, it may have the last
word on a volume that it found, and on no other.
-/

set_option autoImplicit false

namespace FileProvider.BusyHub

open VolumeEvent VolumeReport

/-! ## Several relays -/

/-- Relays that run, each with the end of what was published before it, and one with all of it. -/
structure Follow (events : List VolumeEvent) (relays : List Relay) : Prop where
  running : ∀ r ∈ relays, r.running = true
  behind : ∀ r ∈ relays, r.inbox.pending <:+ events
  first : ∃ r ∈ relays, r.inbox.pending = events

variable {a b : BusyHub}

/-- Where nothing is left to be done about a volume, the relay that has all of the events before it shows that
none of them is about that volume. -/
theorem Follow.underway {events : List VolumeEvent} (h : Follow events a.hub.relays) (hadding : a.adding = [])
    (id : String) : Underway id a.table [] events a := by
  obtain ⟨r, hr, hall⟩ := h.first
  refine ⟨List.ne_nil_of_mem hr, h.running, h.behind, by simp [hadding], fun hquiet => ?_⟩
  rw [lastAbout_eq_none_iff.mpr (hall ▸ hquiet.applied r hr)]
  rfl

/-- Once relays have applied all that was and is published, each from some point on and one from the first
event on, the table holds what each event in turn would have left, whatever turns they took: the record of the
last mount of a volume, nothing after a last event of another kind, and what was there before for a volume
that no event is about. -/
theorem Run.delivered {past future : List VolumeEvent} (ht : a.table.Reachable) (hadding : a.adding = [])
    (hfollow : Follow past a.hub.relays)
    (hopen : future ≠ [] → ∀ r ∈ a.hub.relays, r.inbox.connected = true) (hrun : Run a future b)
    (hdone : b.Done) :
    b.table.Distinct ∧
    ∀ id, b.table.get? id = (a.table.applyAll (past ++ future)).get? id ∧
      b.table.get? id = match lastAbout id (past ++ future) with
        | some (.mounted report) => some (.ofReport report)
        | some (.unmounted _) => none
        | some (.other _ _) => none
        | none => a.table.get? id := by
  refine ⟨hrun.distinct ht.distinct, fun id => ?_⟩
  have houtcome := ((hfollow.underway hadding id).run (by simp) hrun hopen).outcome hdone
  rw [VolumeTable.get?_applyAll]
  cases hlast : lastAbout id (past ++ future) with
  | none =>
    rw [hlast] at houtcome
    exact ⟨houtcome, houtcome⟩
  | some e =>
    rw [hlast] at houtcome
    cases e <;> exact ⟨houtcome, houtcome⟩

/-- One relay lags behind: it applies that the card is gone after the other one has applied that it is back. -/
theorem Run.delivered_lagging :
    ∃ a b : BusyHub, a.table.Reachable ∧ a.adding = [] ∧
      Follow [.mounted ⟨"card", "old", "/mnt/card"⟩, .unmounted "card"] a.hub.relays ∧
      Run a [.mounted ⟨"card", "new", "/mnt/card"⟩] b ∧ b.Done ∧ b.table.Distinct ∧
      b.table.get? "card" = some (.ofReport ⟨"card", "new", "/mnt/card"⟩) := by
  let a : BusyHub := ⟨⟨[], [], [], [⟨⟨[.mounted ⟨"card", "old", "/mnt/card"⟩, .unmounted "card"], true⟩, true⟩,
    ⟨⟨[.unmounted "card"], true⟩, true⟩]⟩, []⟩
  let b : BusyHub := ⟨⟨[.ofReport ⟨"card", "new", "/mnt/card"⟩], [], [],
    [⟨⟨[], true⟩, true⟩, ⟨⟨[], true⟩, true⟩]⟩, []⟩
  have hfollow : Follow [.mounted ⟨"card", "old", "/mnt/card"⟩, .unmounted "card"] a.hub.relays :=
    ⟨by decide, by decide, _, List.mem_cons_self, rfl⟩
  -- The first relay applies all three events before the second one applies any of its two.
  have hrun : Run a [.mounted ⟨"card", "new", "/mnt/card"⟩] b :=
    (run_publish [.mounted ⟨"card", "new", "/mnt/card"⟩] a).trans (run_settle _ [])
  have hdone : b.Done := ⟨by decide, by decide⟩
  have hempty : a.table.Reachable := .empty
  obtain ⟨hdistinct, hget⟩ := hrun.delivered hempty rfl hfollow (by decide) hdone
  exact ⟨a, b, hempty, rfl, hfollow, hrun, hdone, hdistinct, (hget "card").2⟩

/-! ## An enumeration beside the relays -/

section

variable {hub : VolumeHub} (hrelays : hub.relays = []) (found : List VolumeReport)

include hrelays

theorem relays_start : (start (.ok found) ⟨hub, []⟩).hub.relays = [⟨.fresh, true⟩] := by
  simp [start, connect, VolumeHub.relay, hrelays]

/-- At a start what was found is still to be added. -/
theorem underway_start (id : String) : Underway id hub.table found [] (start (.ok found) ⟨hub, []⟩) := by
  have hrelay := relays_start hrelays found
  refine ⟨by simp [hrelay], by simp [hrelay], by simp [hrelay, Inbox.fresh], by simp [start], ?_⟩
  intro hquiet
  rw [named?_eq_none_iff.mpr (hquiet.added found (by simp [start]))]
  rfl

theorem connected_start : ∀ r ∈ (start (.ok found) ⟨hub, []⟩).hub.relays, r.inbox.connected = true := by
  simp [relays_start hrelays found, Inbox.fresh]

/-- Whatever turns are taken after a start, no relay is cut off. -/
theorem connected_after_start {found : List VolumeReport} {events : List VolumeEvent}
    (hrun : Run (start (.ok found) ⟨hub, []⟩) events b) : ∀ r ∈ b.hub.relays, r.inbox.connected = true :=
  hrun.connected (connected_start hrelays found)

theorem underway_after_start {found : List VolumeReport} (hfound : (found.map VolumeReport.id).Nodup)
    {events : List VolumeEvent} (hrun : Run (start (.ok found) ⟨hub, []⟩) events b) (id : String) :
    Underway id hub.table found events b :=
  (underway_start hrelays found id).run hfound hrun fun _ => connected_start hrelays found

/-- The enumeration may be through before anything is published. -/
theorem run_found_first (events : List VolumeEvent) :
    ∃ m b, Run (start (.ok found) ⟨hub, []⟩) [] m ∧ m.adding = [[]] ∧ Run m events b ∧ b.Done ∧
      b.table = (hub.table.enumerate (.ok found)).applyAll events := by
  have hstart : (hub.start (.ok found)).relays = [⟨.fresh, true⟩] ∧
      (hub.start (.ok found)).table = hub.table.enumerate (.ok found) := by
    simp [VolumeHub.start, VolumeHub.settle, VolumeHub.relay, VolumeHub.withTable, VolumeHub.drainAll,
      Relay.drain, Inbox.emptied, Inbox.fresh, VolumeTable.applyAll, hrelays]
  have hrun := (run_publish events ⟨hub.start (.ok found), [[]]⟩).trans (run_settle _ _)
  rw [List.append_nil] at hrun
  refine ⟨_, _, run_start hub found, rfl, hrun, ⟨VolumeHub.pending_drainAll _ _, by simp⟩, ?_⟩
  rw [← hstart.2]
  exact VolumeHub.table_settle_publish hstart.1 events

/-- Everything may be published and applied before the enumeration adds anything. -/
theorem run_found_last (events : List VolumeEvent) :
    ∃ b, Run (start (.ok found) ⟨hub, []⟩) events b ∧ b.Done ∧
      b.table = (hub.table.applyAll events).enumerate (.ok found) := by
  have hrelay : (hub.relay .fresh).relays = [⟨.fresh, true⟩] := by simp [VolumeHub.relay, hrelays]
  have hrun := (run_publish events (start (.ok found) ⟨hub, []⟩)).trans
    ((run_settle _ _).trans (run_added _ [] [] found))
  rw [List.append_nil, List.append_nil] at hrun
  refine ⟨_, hrun, ⟨VolumeHub.pending_drainAll _ _, by simp⟩, ?_⟩
  exact congrArg (fun t => VolumeTable.enumerate t (.ok found))
    (VolumeHub.table_settle_publish hrelay events)

end

/-- What can come of a start. Once everything that was found is added and everything that was published is
applied, in any turns, the table holds for each volume what the last event about it leaves, or what was found
if nothing was published about it or the enumeration came last; and each of these can happen. -/
theorem outcome_start {hub : VolumeHub} (ht : hub.table.Reachable) (hrelays : hub.relays = [])
    {found : List VolumeReport} (hfound : (found.map VolumeReport.id).Nodup) (events : List VolumeEvent) :
    (∀ b, Run (start (.ok found) ⟨hub, []⟩) events b → b.Done → b.table.Distinct ∧
      ∀ id, Outcome (hub.table.get? id) (lastAbout id events) (named? found id) (b.table.get? id)) ∧
    ∀ id now, Outcome (hub.table.get? id) (lastAbout id events) (named? found id) now →
      ∃ b, Run (start (.ok found) ⟨hub, []⟩) events b ∧ b.Done ∧ b.table.get? id = now := by
  constructor
  · intro b hrun hdone
    exact ⟨hrun.distinct ht.distinct, fun id => (underway_after_start hrelays hfound hrun id).outcome hdone⟩
  · intro id now hnow
    rcases outcome_iff.mp hnow with htold | hfound'
    · obtain ⟨m, b, hstarted, -, hrun, hdone, htable⟩ := run_found_first hrelays found events
      refine ⟨b, hstarted.trans hrun, hdone, ?_⟩
      rw [htable, VolumeTable.get?_applyAll, VolumeTable.get?_enumerate hfound, htold]
    · obtain ⟨b, hrun, hdone, htable⟩ := run_found_last hrelays found events
      refine ⟨b, hrun, hdone, ?_⟩
      rw [htable, VolumeTable.get?_enumerate hfound, VolumeTable.get?_applyAll, hfound']

/-- The card is found as it was when it is told to be another one by now, and the stick when it is told to be
gone. The enumeration adds the card before the event about it is applied, and the stick after the event
about that. -/
theorem outcome_start_raced :
    ∃ b : BusyHub, Run (start (.ok [⟨"card", "old", "/mnt/card"⟩, ⟨"stick", "", "/mnt/stick"⟩]) ⟨.empty, []⟩)
        [.mounted ⟨"card", "new", "/mnt/card"⟩, .unmounted "stick"] b ∧ b.Done ∧ b.table.Distinct ∧
      (b.table.get? "card" = some (.ofReport ⟨"card", "new", "/mnt/card"⟩) ∧
        Outcome none (some (.mounted ⟨"card", "new", "/mnt/card"⟩)) (some ⟨"card", "old", "/mnt/card"⟩)
          (b.table.get? "card")) ∧
      (b.table.get? "stick" = some (.ofReport ⟨"stick", "", "/mnt/stick"⟩) ∧
        Outcome none (some (.unmounted "stick")) (some ⟨"stick", "", "/mnt/stick"⟩)
          (b.table.get? "stick")) := by
  let found : List VolumeReport := [⟨"card", "old", "/mnt/card"⟩, ⟨"stick", "", "/mnt/stick"⟩]
  let events : List VolumeEvent := [.mounted ⟨"card", "new", "/mnt/card"⟩, .unmounted "stick"]
  let b : BusyHub := ⟨⟨[.ofReport ⟨"card", "new", "/mnt/card"⟩, .ofReport ⟨"stick", "", "/mnt/stick"⟩], [], [],
    [⟨⟨[], true⟩, true⟩]⟩, [[]]⟩
  have hcard : Run (start (.ok found) ⟨.empty, []⟩) [] _ := .turn .start (.added _ [] [] _ _)
  have hrun : Run (start (.ok found) ⟨.empty, []⟩) events b :=
    .turn (hcard.trans ((run_publish events _).trans (run_settle _ _))) (.added _ [] [] _ _)
  have hdone : b.Done := ⟨by decide, by decide⟩
  have hfound : (found.map VolumeReport.id).Nodup := by decide
  obtain ⟨hdistinct, houtcome⟩ := (outcome_start .empty rfl hfound events).1 b hrun hdone
  exact ⟨b, hrun, hdone, hdistinct, ⟨rfl, houtcome "card"⟩, rfl, houtcome "stick"⟩

end FileProvider.BusyHub
