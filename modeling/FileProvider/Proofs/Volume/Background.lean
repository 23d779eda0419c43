import FileProvider.Proofs.Volume.Table
import FileProvider.Volume.Background

/-!
# Relays and enumerations side by side

Several relays may apply the same events, some of them long after the others, while an enumeration adds what
it found before. Each relay has before it the end of what was published, so the last event about a volume
that it applies is the last one of all, and it does not matter which relay comes last. An enumeration may
still add a volume after the last event about it was applied. `Underway` says this of every point of a run,
and `Outcome` what is left of it in the end.
-/

set_option autoImplicit false

namespace FileProvider

open VolumeEvent VolumeReport

/-! ## One turn of a relay -/

namespace Relay

variable {r : Relay} {t : VolumeTable}

theorem step_nil (h : r.inbox.pending = []) : r.step t = (r, t) := by
  unfold step
  cases r.running <;> simp [h]

theorem step_cons (hrunning : r.running = true) {e : VolumeEvent} {rest : List VolumeEvent}
    (h : r.inbox.pending = e :: rest) :
    r.step t = ({ r with inbox := { r.inbox with pending := rest } }, t.apply e) := by
  simp [step, hrunning, h]

end Relay

namespace BusyHub

/-- What a table can hold at an id in the end: what the last event about it leaves or what was found, if
there is one of them, and otherwise what was there before. -/
def Outcome (old : Option Volume) (told : Option VolumeEvent) (found : Option VolumeReport)
    (now : Option Volume) : Prop :=
  match told, found with
  | none, none => now = old
  | none, some report => now = some (.ofReport report)
  | some e, none => now = e.leaves
  | some e, some report => now = e.leaves ∨ now = some (.ofReport report)

/-- It is what comes of either order: first what was found and then the events, or the other way round. -/
theorem outcome_iff {old : Option Volume} {told : Option VolumeEvent} {found : Option VolumeReport}
    {now : Option Volume} :
    Outcome old told found now ↔
      now = told.elim ((found.map .ofReport).or old) leaves ∨
        now = (found.map .ofReport).or (told.elim old leaves) := by
  cases told <;> cases found <;> simp [Outcome]

/-- Nothing is left to be done about a volume. -/
structure Quiet (b : BusyHub) (id : String) : Prop where
  applied : ∀ r ∈ b.hub.relays, ∀ e ∈ r.inbox.pending, e.volumeId ≠ id
  added : ∀ rest ∈ b.adding, ∀ report ∈ rest, report.id ≠ id

/-- What is true of a volume at every point after a table `t`, when an enumeration found some volumes and some
events were published, relays and enumeration having had any turns. -/
structure Underway (id : String) (t : VolumeTable) (found : List VolumeReport) (events : List VolumeEvent)
    (b : BusyHub) : Prop where
  nonempty : b.hub.relays ≠ []
  running : ∀ r ∈ b.hub.relays, r.running = true
  /-- Every relay has before it the end of what was published. -/
  behind : ∀ r ∈ b.hub.relays, r.inbox.pending <:+ events
  adding : ∀ rest ∈ b.adding, rest <:+ found
  settled : b.Quiet id → Outcome (t.get? id) (lastAbout id events) (named? found id) (b.table.get? id)

variable {id : String} {t : VolumeTable} {found : List VolumeReport} {events : List VolumeEvent} {a b c : BusyHub}

/-- A relay applies its next event: where that was the last thing to be done about a volume, it was also the
last event about it that was published. -/
theorem Underway.applied {hub : VolumeHub} {adding : List (List VolumeReport)} {before after : List Relay}
    {r : Relay} {e : VolumeEvent} {rest : List VolumeEvent} (h : Underway id t found events ⟨hub, adding⟩)
    (hr : hub.relays = before ++ r :: after) (hpending : r.inbox.pending = e :: rest) :
    Underway id t found events
      ⟨{ hub with
          table := hub.table.apply e
          relays := before ++ { r with inbox := { r.inbox with pending := rest } } :: after }, adding⟩ := by
  obtain ⟨-, hrunning, hbehind, hadding, hsettled⟩ := h
  simp only [hr, List.forall_mem_append, List.forall_mem_cons, hpending] at hrunning hbehind
  obtain ⟨hbefore, hsuffix, hafter⟩ := hbehind
  refine ⟨by simp, ?_, ?_, hadding, ?_⟩
  · simpa only [List.forall_mem_append, List.forall_mem_cons] using hrunning
  · simp only [List.forall_mem_append, List.forall_mem_cons]
    exact ⟨hbefore, (List.suffix_cons e rest).trans hsuffix, hafter⟩
  · intro hquiet
    have happlied := hquiet.applied
    simp only [List.forall_mem_append, List.forall_mem_cons] at happlied
    obtain ⟨hbefore, hrest, hafter⟩ := happlied
    show Outcome _ _ _ ((hub.table.apply e).get? id)
    rw [VolumeTable.get?_apply]
    by_cases he : e.volumeId = id
    · -- What this relay had before it is the end of all the events, and `e` is the last one there about `id`.
      have hlast : lastAbout id events = some e := by
        refine lastAbout_of_suffix hsuffix ?_
        rw [lastAbout_cons, lastAbout_eq_none_iff.mpr hrest, Option.none_or, if_pos he]
      rw [if_pos he, hlast]
      unfold Outcome
      cases named? found id with
      | none => rfl
      | some report => exact .inl rfl
    · rw [if_neg he]
      refine hsettled ⟨?_, hquiet.added⟩
      simp only [hr, List.forall_mem_append, List.forall_mem_cons, hpending]
      exact ⟨hbefore, ⟨he, hrest⟩, hafter⟩

/-- An enumeration adds its next volume: where that was the last thing to be done about a volume, what was
found is there. -/
theorem Underway.added {hub : VolumeHub} {before after : List (List VolumeReport)} {report : VolumeReport}
    {rest : List VolumeReport} (hfound : (found.map VolumeReport.id).Nodup)
    (h : Underway id t found events ⟨hub, before ++ (report :: rest) :: after⟩) :
    Underway id t found events ⟨hub.withTable fun t => t.add (.ofReport report), before ++ rest :: after⟩ := by
  obtain ⟨hnonempty, hrunning, hbehind, hadding, hsettled⟩ := h
  simp only [List.forall_mem_append, List.forall_mem_cons] at hadding
  obtain ⟨hbefore, hsuffix, hafter⟩ := hadding
  refine ⟨hnonempty, hrunning, hbehind, ?_, ?_⟩
  · simp only [List.forall_mem_append, List.forall_mem_cons]
    exact ⟨hbefore, (List.suffix_cons report rest).trans hsuffix, hafter⟩
  · intro hquiet
    have hadded := hquiet.added
    simp only [List.forall_mem_append, List.forall_mem_cons] at hadded
    obtain ⟨hbefore, hrest, hafter⟩ := hadded
    show Outcome _ _ _ ((hub.table.add (.ofReport report)).get? id)
    rw [VolumeTable.get?_add]
    by_cases hid : report.id = id
    · have hnamed : named? found report.id = some report :=
        named?_of_mem hfound (hsuffix.subset List.mem_cons_self)
      rw [if_pos (show (Volume.ofReport report).id = id from hid), ← hid, hnamed]
      unfold Outcome
      cases lastAbout report.id events with
      | none => rfl
      | some e => exact .inr rfl
    · rw [if_neg (show (Volume.ofReport report).id ≠ id from hid)]
      refine hsettled ⟨hquiet.applied, ?_⟩
      simp only [List.forall_mem_append, List.forall_mem_cons]
      exact ⟨hbefore, ⟨hid, hrest⟩, hafter⟩

theorem Underway.turn (hfound : (found.map VolumeReport.id).Nodup) (h : Underway id t found events b)
    (hturn : Turn b c) : Underway id t found events c := by
  cases hturn with
  | applied hub adding before after r hr =>
    cases hpending : r.inbox.pending with
    | nil =>
      rw [Relay.step_nil hpending, ← hr]
      exact h
    | cons e rest =>
      rw [Relay.step_cons (h.running r (by simp [hr])) hpending]
      exact h.applied hr hpending
  | added hub before after report rest => exact h.added hfound

/-- What is published reaches every relay, so that there is something left to be done about its volume. -/
theorem Underway.publish (h : Underway id t found events b) (hopen : ∀ r ∈ b.hub.relays, r.inbox.connected = true)
    (e : VolumeEvent) : Underway id t found (events ++ [e]) (b.publish e) := by
  have hreceive : ∀ r ∈ b.hub.relays, (r.inbox.receive e).pending = r.inbox.pending ++ [e] := by
    intro r hr
    simp [Inbox.receive, hopen r hr]
  have hrelays : (b.publish e).hub.relays = b.hub.relays.map fun r => { r with inbox := r.inbox.receive e } :=
    rfl
  refine ⟨?_, ?_, ?_, h.adding, ?_⟩
  · rw [hrelays, ne_eq, List.map_eq_nil_iff]
    exact h.nonempty
  · rw [hrelays, List.forall_mem_map]
    exact h.running
  · rw [hrelays, List.forall_mem_map]
    intro r hr
    simp only [hreceive r hr]
    obtain ⟨earlier, hearlier⟩ := h.behind r hr
    exact ⟨earlier, by rw [← hearlier, List.append_assoc]⟩
  · intro hquiet
    have happlied := hquiet.applied
    rw [hrelays, List.forall_mem_map] at happlied
    have hbefore : ∀ r ∈ b.hub.relays, (∀ e ∈ r.inbox.pending, e.volumeId ≠ id) ∧ e.volumeId ≠ id := by
      intro r hr
      have := happlied r hr
      simpa only [hreceive r hr, List.forall_mem_append, List.forall_mem_singleton] using this
    -- Any relay will do: the event is in its inbox, so it is not about `id`.
    obtain ⟨r, hr⟩ := List.exists_mem_of_ne_nil _ h.nonempty
    rw [lastAbout_append, lastAbout_singleton, if_neg (hbefore r hr).2, Option.none_or]
    exact h.settled ⟨fun r hr => (hbefore r hr).1, hquiet.added⟩

/-- A relay that is connected now has nothing before it. -/
theorem Underway.connect (h : Underway id t found events b) : Underway id t found events b.connect := by
  have hrelays : b.connect.hub.relays = b.hub.relays ++ [⟨.fresh, true⟩] := rfl
  refine ⟨by simp [hrelays], ?_, ?_, h.adding, ?_⟩
  · rw [hrelays, List.forall_mem_append, List.forall_mem_singleton]
    exact ⟨h.running, rfl⟩
  · rw [hrelays, List.forall_mem_append, List.forall_mem_singleton]
    exact ⟨h.behind, List.nil_suffix⟩
  · intro hquiet
    refine h.settled ⟨fun r hr => hquiet.applied r ?_, hquiet.added⟩
    simp [hrelays, hr]

/-- A turn leaves every inbox connected that was. -/
theorem Turn.connected (hturn : Turn b c) (h : ∀ r ∈ b.hub.relays, r.inbox.connected = true) :
    ∀ r ∈ c.hub.relays, r.inbox.connected = true := by
  cases hturn with
  | applied hub adding before after r hr =>
    have hstep : (r.step hub.table).1.inbox.connected = r.inbox.connected := by
      unfold Relay.step
      split <;> rfl
    simpa only [hr, hstep, List.forall_mem_append, List.forall_mem_cons] using h
  | added => exact h

theorem Run.connected (hrun : Run a events b) (h : ∀ r ∈ a.hub.relays, r.inbox.connected = true) :
    ∀ r ∈ b.hub.relays, r.inbox.connected = true := by
  induction hrun with
  | start => exact h
  | turn _ hturn ih => exact hturn.connected ih
  | publish _ e ih =>
    show ∀ r ∈ List.map _ _, _
    rw [List.forall_mem_map]
    intro r hr
    simp [Inbox.receive, ih r hr]
  | connect _ ih =>
    show ∀ r ∈ _ ++ _, _
    rw [List.forall_mem_append, List.forall_mem_singleton]
    exact ⟨ih, rfl⟩

/-- A whole run: relays that are connected, or among which nothing more is published. -/
theorem Underway.run {past : List VolumeEvent} (hfound : (found.map VolumeReport.id).Nodup)
    (h : Underway id t found past a) (hrun : Run a events b)
    (hopen : events ≠ [] → ∀ r ∈ a.hub.relays, r.inbox.connected = true) :
    Underway id t found (past ++ events) b := by
  induction hrun with
  | start => rwa [List.append_nil]
  | turn _ hturn ih => exact (ih hopen).turn hfound hturn
  | publish hrun e ih =>
    have hconnected := hopen (by simp)
    rw [← List.append_assoc]
    exact (ih fun _ => hconnected).publish (hrun.connected hconnected) e
  | connect _ ih => exact (ih hopen).connect

/-- Once the enumeration is through, a volume about which nothing was published yet may be followed from there. -/
theorem Underway.afresh (h : Underway id t found events b) (hadded : ∀ rest ∈ b.adding, rest = [])
    (huntold : lastAbout id events = none) : Underway id b.table [] events b := by
  refine ⟨h.nonempty, h.running, h.behind, fun rest hrest => ?_, fun _ => ?_⟩
  · simp [hadded rest hrest]
  · rw [huntold]
    rfl

/-- In the end nothing is left to be done. -/
theorem Underway.outcome (h : Underway id t found events b) (hdone : b.Done) :
    Outcome (t.get? id) (lastAbout id events) (named? found id) (b.table.get? id) := by
  refine h.settled ⟨fun r hr => ?_, fun rest hrest => ?_⟩
  · simp [hdone.applied r hr (h.running r hr)]
  · simp [hdone.added rest hrest]

/-! ## Ids stay distinct -/

theorem Turn.distinct (hturn : Turn b c) (h : b.table.Distinct) : c.table.Distinct := by
  cases hturn with
  | applied hub adding before after r hr =>
    show ((r.step hub.table).2).Distinct
    unfold Relay.step
    split
    · exact VolumeTable.Distinct.apply h _
    · exact h
  | added hub before after report rest => exact VolumeTable.Distinct.add h _

theorem Run.distinct (hrun : Run a events b) (h : a.table.Distinct) : b.table.Distinct := by
  induction hrun with
  | start => exact h
  | turn _ hturn ih => exact hturn.distinct ih
  | publish _ _ ih => exact ih
  | connect _ ih => exact ih

end BusyHub

end FileProvider
