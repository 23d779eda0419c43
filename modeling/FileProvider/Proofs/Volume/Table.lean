import Mathlib.Data.List.Nodup
import FileProvider.Volume.Table

/-!
# Reading a table that was changed

What a table holds for an id after each operation, and after events one after the other: what the last
event about that id leaves, or what was there if no event is about it. No two volumes of a table that can
come about have the same id.
-/

set_option autoImplicit false

namespace FileProvider

namespace VolumeEvent

/-- The record that an event leaves of its volume. -/
def leaves : VolumeEvent → Option Volume
  | .mounted report => some (.ofReport report)
  | .unmounted _ => none
  | .other _ _ => none

/-- The last event about a volume. -/
def lastAbout (id : String) (events : List VolumeEvent) : Option VolumeEvent :=
  (events.filter fun e => e.volumeId = id).getLast?

variable {id : String} {e : VolumeEvent} {events later : List VolumeEvent}

@[simp] theorem lastAbout_nil : lastAbout id [] = none := rfl

theorem lastAbout_append :
    lastAbout id (events ++ later) = (lastAbout id later).or (lastAbout id events) := by
  simp [lastAbout, List.getLast?_append]

theorem lastAbout_singleton : lastAbout id [e] = if e.volumeId = id then some e else none := by
  by_cases he : e.volumeId = id <;> simp [lastAbout, he]

theorem lastAbout_cons :
    lastAbout id (e :: later) = (lastAbout id later).or (if e.volumeId = id then some e else none) := by
  rw [← List.singleton_append, lastAbout_append, lastAbout_singleton]

@[simp] theorem lastAbout_eq_none_iff : lastAbout id events = none ↔ ∀ e ∈ events, e.volumeId ≠ id := by
  simp [lastAbout]

/-- The last event about a volume is the last one also among everything that came before. -/
theorem lastAbout_of_suffix (h : later <:+ events) (he : lastAbout id later = some e) :
    lastAbout id events = some e := by
  obtain ⟨earlier, rfl⟩ := h
  rw [lastAbout_append, he, Option.some_or]

theorem volumeId_of_lastAbout (he : lastAbout id events = some e) : e ∈ events ∧ e.volumeId = id := by
  simpa using List.mem_filter.mp (List.mem_of_getLast? he)

end VolumeEvent

/-- No two reports have the same record. -/
theorem Volume.ofReport_injective : Function.Injective Volume.ofReport := by
  intro r s h
  obtain ⟨id, uuid, path⟩ := r
  cases h
  rfl

namespace VolumeReport

/-- The report with an id. -/
def named? (reports : List VolumeReport) (id : String) : Option VolumeReport :=
  reports.find? fun r => r.id = id

open VolumeEvent

variable {reports : List VolumeReport} {id : String} {r : VolumeReport}

@[simp] theorem named?_eq_none_iff : named? reports id = none ↔ ∀ r ∈ reports, r.id ≠ id := by
  simp [named?]

theorem of_named? (h : named? reports id = some r) : r ∈ reports ∧ r.id = id :=
  ⟨List.mem_of_find?_eq_some h, by simpa using List.find?_some h⟩

/-- Where the ids are distinct, a report is found at its own id. -/
theorem named?_of_mem (hdistinct : (reports.map VolumeReport.id).Nodup) (h : r ∈ reports) :
    named? reports r.id = some r := by
  cases hnamed : named? reports r.id with
  | none => exact absurd rfl (named?_eq_none_iff.mp hnamed r h)
  | some s =>
    obtain ⟨hs, hid⟩ := of_named? hnamed
    exact congrArg some (List.inj_on_of_nodup_map hdistinct hs h hid)

/-- Where the ids are distinct, a report that has an id is the one that is found there. -/
theorem named?_eq_some_iff (hdistinct : (reports.map VolumeReport.id).Nodup) :
    named? reports id = some r ↔ r ∈ reports ∧ r.id = id := by
  constructor
  · exact of_named?
  · rintro ⟨hr, rfl⟩
    exact named?_of_mem hdistinct hr

/-- Reports with distinct ids are the same up to their order if there is the same at each id. -/
theorem perm_iff_named? {others : List VolumeReport} (hdistinct : (reports.map VolumeReport.id).Nodup)
    (hothers : (others.map VolumeReport.id).Nodup) :
    others.Perm reports ↔ ∀ id, named? others id = named? reports id := by
  rw [List.perm_ext_iff_of_nodup hothers.of_map hdistinct.of_map]
  constructor
  · intro h id
    ext r
    rw [named?_eq_some_iff hdistinct, named?_eq_some_iff hothers, h]
  · intro h r
    have hr := congrArg (· = some r) (h r.id)
    simpa [named?_eq_some_iff hdistinct, named?_eq_some_iff hothers] using hr

/-- The order of reports with distinct ids does not matter. -/
theorem named?_perm {others : List VolumeReport} (hdistinct : (reports.map VolumeReport.id).Nodup)
    (h : others.Perm reports) (id : String) : named? others id = named? reports id :=
  (perm_iff_named? hdistinct ((h.map _).nodup_iff.mpr hdistinct)).mp h id

theorem named?_filter (hdistinct : (reports.map VolumeReport.id).Nodup) (p : VolumeReport → Bool)
    (id : String) : named? (reports.filter p) id = (named? reports id).filter p := by
  ext r
  rw [named?_eq_some_iff (hdistinct.sublist (List.filter_sublist.map _)), Option.filter_eq_some_iff,
    named?_eq_some_iff hdistinct, List.mem_filter]
  exact ⟨fun ⟨⟨hr, hp⟩, hid⟩ => ⟨⟨hr, hid⟩, hp⟩, fun ⟨⟨hr, hid⟩, hp⟩ => ⟨⟨hr, hp⟩, hid⟩⟩

/-- A forgotten report is gone, and every other one is there as before. -/
theorem named?_forget (hdistinct : (reports.map VolumeReport.id).Nodup) (gone id : String) :
    named? (reports.filter fun r => r.id ≠ gone) id
      = if gone = id then none else named? reports id := by
  rw [named?_filter hdistinct]
  cases hnamed : named? reports id with
  | none => simp
  | some r =>
    have hid : r.id = id := (of_named? hnamed).2
    by_cases hgone : gone = id
    · simp [Option.filter, hid, hgone]
    · simp [Option.filter, hid, hgone, Ne.symm hgone]

theorem named?_append_singleton (reports : List VolumeReport) (r : VolumeReport) (id : String) :
    named? (reports ++ [r]) id = (named? reports id).or (if r.id = id then some r else none) := by
  rw [named?, List.find?_append]
  by_cases hid : r.id = id <;> simp [hid, named?]

/-- One event for each of several reports with distinct ids: the last one about a volume is the one for its
own report. -/
theorem lastAbout_map (hdistinct : (reports.map VolumeReport.id).Nodup)
    {f : VolumeReport → VolumeEvent} (hf : ∀ r, (f r).volumeId = r.id) (id : String) :
    lastAbout id (reports.map f) = (named? reports id).map f := by
  cases hlast : lastAbout id (reports.map f) with
  | none =>
    have hnone : named? reports id = none := by simpa [hf] using hlast
    rw [hnone, Option.map_none]
  | some e =>
    obtain ⟨he, rfl⟩ := volumeId_of_lastAbout hlast
    obtain ⟨report, hreport, rfl⟩ := List.mem_map.mp he
    rw [hf, named?_of_mem hdistinct hreport, Option.map_some]

end VolumeReport

namespace VolumeTable

open VolumeEvent VolumeReport

variable {t : VolumeTable} {id : String}

/-- No two volumes have the same id. -/
def Distinct (t : VolumeTable) : Prop := (t.map Volume.id).Nodup

/-- The table holds exactly what the reports say. -/
def Agrees (t : VolumeTable) (reports : List VolumeReport) : Prop :=
  ∀ id, t.get? id = (named? reports id).map .ofReport

/-- A table of the records of some reports. -/
theorem agrees_map (reports : List VolumeReport) : Agrees (reports.map .ofReport) reports := by
  intro id
  rw [get?, List.find?_map]
  rfl

/-! ## One operation -/

theorem get?_isSome_iff : (t.get? id).isSome = true ↔ id ∈ t.map Volume.id := by
  simp [get?, List.find?_isSome]

theorem id_of_get? {v : Volume} (h : t.get? id = some v) : v ∈ t ∧ v.id = id :=
  ⟨List.mem_of_find?_eq_some h, by simpa using List.find?_some h⟩

/-- An added volume is found at its id, and everything else is as it was. -/
theorem get?_add (t : VolumeTable) (v : Volume) (id : String) :
    (t.add v).get? id = if v.id = id then some v else t.get? id := by
  unfold add
  by_cases hsome : (t.get? v.id).isSome = true
  · rw [if_pos hsome, get?, List.find?_map]
    by_cases hid : v.id = id
    · subst hid
      obtain ⟨w, hw⟩ := Option.isSome_iff_exists.mp hsome
      have hsame : ∀ u : Volume, (if u.id = v.id then v else u).id = v.id ↔ u.id = v.id := by
        intro u
        by_cases hu : u.id = v.id <;> simp [hu]
      simp only [Function.comp_def, hsame, if_true]
      show Option.map _ (t.get? v.id) = _
      simp [hw, (id_of_get? hw).2]
    · have hother : ∀ u : Volume, (if u.id = v.id then v else u).id = id ↔ u.id = id := by
        intro u
        by_cases hu : u.id = v.id <;> simp [hu, hid]
      simp only [Function.comp_def, hother, if_neg hid]
      show Option.map _ (t.get? id) = t.get? id
      cases hw : t.get? id with
      | none => rfl
      | some w => simp [(id_of_get? hw).2, Ne.symm hid]
  · rw [if_neg hsome, get?, List.find?_append]
    show (t.get? id).or _ = _
    by_cases hid : v.id = id
    · subst hid
      simp [Option.not_isSome_iff_eq_none.mp hsome]
    · simp [hid]

/-- A removed volume is gone, and everything else is as it was. -/
theorem get?_remove (t : VolumeTable) (gone id : String) :
    (t.remove gone).get? id = if gone = id then none else t.get? id := by
  unfold remove removal get?
  rw [List.find?_filter]
  by_cases hid : gone = id
  · subst hid
    simp
  · rw [if_neg hid]
    congr 1
    funext v
    by_cases hv : v.id = id
    · simp [hv, Ne.symm hid]
    · simp [hv]

/-- An event decides what is there at its own id only. -/
theorem get?_apply (t : VolumeTable) (e : VolumeEvent) (id : String) :
    (t.apply e).get? id = if e.volumeId = id then e.leaves else t.get? id := by
  cases e with
  | mounted report => exact get?_add t (.ofReport report) id
  | unmounted gone => exact get?_remove t gone id
  | other _ gone => exact get?_remove t gone id

theorem Distinct.add (h : t.Distinct) (v : Volume) : (t.add v).Distinct := by
  unfold Distinct VolumeTable.add
  split
  · have hids : ∀ w : Volume, (if w.id = v.id then v else w).id = w.id := by
      intro w
      by_cases hw : w.id = v.id <;> simp [hw]
    show ((t.map _).map _).Nodup
    rw [List.map_map]
    exact (List.map_congr_left fun w _ => hids w) ▸ h
  · next hnone =>
    rw [get?_isSome_iff] at hnone
    simpa [List.nodup_append] using ⟨h, fun w hw heq => hnone (List.mem_map.mpr ⟨w, hw, heq⟩)⟩

theorem Distinct.remove (h : t.Distinct) (id : String) : (t.remove id).Distinct :=
  h.sublist (List.filter_sublist.map _)

theorem Distinct.apply (h : t.Distinct) (e : VolumeEvent) : (t.apply e).Distinct := by
  cases e with
  | mounted report => exact h.add _
  | unmounted id => exact h.remove id
  | other _ id => exact h.remove id

/-! ## Events one after the other -/

theorem applyAll_cons (t : VolumeTable) (e : VolumeEvent) (events : List VolumeEvent) :
    t.applyAll (e :: events) = (t.apply e).applyAll events := rfl

theorem applyAll_append (t : VolumeTable) (events later : List VolumeEvent) :
    t.applyAll (events ++ later) = (t.applyAll events).applyAll later :=
  List.foldl_append

/-- What is found after several events: what the last one about the id leaves, if there is one. -/
theorem get?_applyAll (t : VolumeTable) (events : List VolumeEvent) (id : String) :
    (t.applyAll events).get? id = (lastAbout id events).elim (t.get? id) leaves := by
  induction events generalizing t with
  | nil => rfl
  | cons e events ih =>
    rw [applyAll_cons, ih, get?_apply, lastAbout_cons]
    cases lastAbout id events with
    | none => by_cases he : e.volumeId = id <;> simp [he]
    | some last => rfl

/-- An enumeration adds its volumes as if they were mounted one after the other. -/
theorem enumerate_ok (t : VolumeTable) (found : List VolumeReport) :
    t.enumerate (.ok found) = t.applyAll (found.map .mounted) := by
  simp [enumerate, applyAll, List.foldl_map, VolumeTable.apply]

/-- An enumeration leaves what it found, and everything else as it was. -/
theorem get?_enumerate {found : List VolumeReport} (hfound : (found.map VolumeReport.id).Nodup)
    (t : VolumeTable) (id : String) :
    (t.enumerate (.ok found)).get? id
      = ((named? found id).map Volume.ofReport).or (t.get? id) := by
  rw [enumerate_ok, get?_applyAll, lastAbout_map hfound fun _ => rfl]
  cases named? found id <;> rfl

theorem Distinct.applyAll (h : t.Distinct) (events : List VolumeEvent) : (t.applyAll events).Distinct := by
  induction events generalizing t with
  | nil => exact h
  | cons e events ih => exact ih (h.apply e)

/-- No table that can come about has two volumes with the same id. -/
theorem Reachable.distinct (h : t.Reachable) : t.Distinct := by
  induction h with
  | empty => exact List.nodup_nil
  | operate _ o ih =>
    cases o with
    | add v => exact ih.add v
    | remove id => exact ih.remove id
    | apply e => exact ih.apply e
    | enumerate found =>
      cases found with
      | ok found =>
        rw [VolumeTable.operate, enumerate_ok]
        exact ih.applyAll _
      | error _ => exact ih
    | clear => exact List.nodup_nil

end VolumeTable

end FileProvider
