import FileProvider.Proofs.Volume.Delivery
import FileProvider.Proofs.Volume.Directory
import FileProvider.Proofs.Volume.Watch

/-!
# What the enumeration and the watcher show together

A hub that is started on a directory gets what the directory holds from an enumeration, and how that changes
from a watcher. Each of them looks for itself: the watcher publishes how the directory differs from its own
first look, so that what changes between the enumeration and that look is made good only when the same volume
changes again.
-/

set_option autoImplicit false

namespace FileProvider

open VolumeEvent VolumeReport

/-- How an empty hub that is started on a directory follows a watcher of it: the enumeration sees one state of
the host, the watcher's first look another one, and its later looks those after that. The enumeration is through
at some point, before or after events were published. -/
structure Course (d : VolumeDirectory) (enumerated baseline : Host) (later : List Host) where
  hub : VolumeHub
  looks : List Look
  /-- What is published until the enumeration is through. -/
  early : List VolumeEvent
  /-- What is published after that. -/
  late : List VolumeEvent
  mid : BusyHub
  final : BusyHub
  table : hub.table = []
  relays : hub.relays = []
  scans : looks.map Look.scan = later.map d.scan
  watched : Watched (d.visible baseline) looks
  published : Look.allPublished looks = early ++ late
  started : BusyHub.Run (.start (d.scan enumerated) ⟨hub, []⟩) early mid
  added : ∀ rest ∈ mid.adding, rest = []
  followed : BusyHub.Run mid late final
  done : final.Done

namespace Course

variable {d : VolumeDirectory} {enumerated baseline : Host} {later : List Host}

/-! ## Courses that there are -/

/-- The enumeration may be through before anything is published. -/
theorem exists_prompt (hscan : (d.scan enumerated).isOk = true) (baseline : Host) (later : List Host) :
    ∃ c : Course d enumerated baseline later, c.early = [] ∧
      c.final.table = (VolumeTable.enumerate [] (d.scan enumerated)).applyAll
        (Look.allPublished (d.looks (d.visible baseline) later)) := by
  obtain ⟨mid, final, hstarted, hadding, hfollowed, hdone, htable⟩ :=
    @BusyHub.run_found_first .empty rfl (d.visible enumerated)
      (Look.allPublished (d.looks (d.visible baseline) later))
  rw [← VolumeDirectory.scan_eq_ok hscan] at hstarted htable
  exact ⟨⟨.empty, _, [], _, mid, final, rfl, rfl, d.scans_looks _ later, d.watched_looks _ later, rfl, hstarted,
    by simp [hadding], hfollowed, hdone⟩, rfl, htable⟩

/-- The enumeration may be through only after everything was published and applied. -/
theorem exists_tardy (hscan : (d.scan enumerated).isOk = true) (baseline : Host) (later : List Host) :
    ∃ c : Course d enumerated baseline later, c.late = [] ∧
      c.final.table = (VolumeTable.applyAll [] (Look.allPublished (d.looks (d.visible baseline) later))).enumerate
        (d.scan enumerated) := by
  obtain ⟨final, hstarted, hdone, htable⟩ := @BusyHub.run_found_last .empty rfl (d.visible enumerated)
    (Look.allPublished (d.looks (d.visible baseline) later))
  rw [← VolumeDirectory.scan_eq_ok hscan] at hstarted htable
  exact ⟨⟨.empty, _, _, [], final, final, rfl, rfl, d.scans_looks _ later, d.watched_looks _ later,
    (List.append_nil _).symm, hstarted, hdone.added, .start, hdone⟩, rfl, htable⟩

/-! ## What is published -/

/-- No later look shows a volume otherwise than the first one. -/
def Steady (d : VolumeDirectory) (baseline : Host) (later : List Host) (id : String) : Prop :=
  ∀ h ∈ later, named? (d.visible h) id = named? (d.visible baseline) id

/-- In every state of the host each location stands once. -/
def Sound (enumerated baseline : Host) (later : List Host) : Prop :=
  ∀ h ∈ enumerated :: baseline :: later, (h.entries.map Prod.fst).Nodup

theorem seen_looks (c : Course d enumerated baseline later) : c.looks.map Look.seen = later.map d.visible := by
  have h := congrArg (List.map VolumeDirectory.seen) c.scans
  rwa [List.map_map, List.map_map] at h

theorem distinct_looks (c : Course d enumerated baseline later) (hsound : Sound enumerated baseline later) :
    Watched.Distinct (d.visible baseline) c.looks := by
  unfold Watched.Distinct
  rw [c.seen_looks, ← List.map_cons, List.forall_mem_map]
  exact fun h hh => d.nodup_visible (hsound h (List.mem_cons_of_mem _ hh))

theorem untold_iff_steady (c : Course d enumerated baseline later) (hsound : Sound enumerated baseline later)
    (id : String) : lastAbout id (c.early ++ c.late) = none ↔ Steady d baseline later id := by
  have h := c.watched.lastAbout_allPublished_eq_none_iff (c.distinct_looks hsound) id
  rw [c.published, ← List.forall_mem_map (P := fun reports => named? reports id = _), c.seen_looks,
    List.forall_mem_map] at h
  exact h

theorem latest_looks {between : List Host} {last : Host} (c : Course d enumerated baseline (between ++ [last])) :
    Look.latest (d.visible baseline) c.looks = d.visible last := by
  have hfold : Look.latest (d.visible baseline) c.looks
      = (c.looks.map Look.seen).foldl (fun _ reports => reports) (d.visible baseline) := by
    rw [List.foldl_map]
    rfl
  rw [hfold, c.seen_looks, List.map_append, List.foldl_append]
  rfl

/-! ## What is in the table -/

/-- What is left of a volume, whenever the enumeration is through. -/
theorem outcome (c : Course d enumerated baseline later) (hsound : Sound enumerated baseline later)
    (hscan : (d.scan enumerated).isOk = true) (id : String) :
    BusyHub.Outcome none (lastAbout id (c.early ++ c.late)) (named? (d.visible enumerated) id)
      (c.final.table.get? id) := by
  have hfound := d.nodup_visible (hsound enumerated List.mem_cons_self)
  have hrun := c.started.trans c.followed
  rw [VolumeDirectory.scan_eq_ok hscan] at hrun
  have houtcome := (BusyHub.underway_after_start c.relays hfound hrun id).outcome c.done
  rwa [c.table] at houtcome

/-- What is left of a volume about which nothing is published before the enumeration is through: what is
published about it after that decides. -/
theorem get?_of_untold (c : Course d enumerated baseline later) (hsound : Sound enumerated baseline later)
    (hscan : (d.scan enumerated).isOk = true) {id : String} (hearly : ∀ e ∈ c.early, e.volumeId ≠ id) :
    c.final.table.get? id
      = (lastAbout id (c.early ++ c.late)).elim ((named? (d.visible enumerated) id).map .ofReport) leaves := by
  have hfound := d.nodup_visible (hsound enumerated List.mem_cons_self)
  have hstarted := c.started
  rw [VolumeDirectory.scan_eq_ok hscan] at hstarted
  have hmid := BusyHub.underway_after_start c.relays hfound hstarted id
  have huntold : lastAbout id c.early = none := lastAbout_eq_none_iff.mpr hearly
  have hget : c.mid.table.get? id = (named? (d.visible enumerated) id).map .ofReport := by
    have hsettled := hmid.settled
      ⟨fun r hr e he => hearly e ((hmid.behind r hr).subset he), fun rest hrest => by simp [c.added rest hrest]⟩
    rw [huntold, c.table, BusyHub.outcome_iff] at hsettled
    simpa [VolumeTable.get?] using hsettled
  -- From here on the volume is followed as if nothing had been found.
  have hopen := BusyHub.connected_after_start c.relays hstarted
  have hend := ((hmid.afresh c.added huntold).run (by simp) c.followed fun _ => hopen).outcome c.done
  rw [hget, BusyHub.outcome_iff] at hend
  simpa [named?] using hend

theorem distinct_final (c : Course d enumerated baseline later) : c.final.table.Distinct := by
  refine (c.started.trans c.followed).distinct ?_
  have htable : (BusyHub.start (d.scan enumerated) ⟨c.hub, []⟩).table = c.hub.table := by
    unfold BusyHub.start
    cases d.scan enumerated <;> rfl
  rw [htable, c.table]
  exact List.nodup_nil

/-- Of a volume that never changes after the watcher's first look, there is what the enumeration saw. -/
theorem get?_of_steady (c : Course d enumerated baseline later) (hsound : Sound enumerated baseline later)
    (hscan : (d.scan enumerated).isOk = true) {id : String} (h : Steady d baseline later id) :
    c.final.table.get? id = (named? (d.visible enumerated) id).map .ofReport := by
  have houtcome := c.outcome hsound hscan id
  rw [(c.untold_iff_steady hsound id).mpr h, BusyHub.outcome_iff] at houtcome
  simpa using houtcome

section

variable {between : List Host} {last : Host}

/-- Of a volume that changes after the watcher's first look, there is what the last look shows, unless the
enumeration was not through when something was published about the volume. -/
theorem get?_of_changed (c : Course d enumerated baseline (between ++ [last]))
    (hsound : Sound enumerated baseline (between ++ [last])) (hscan : (d.scan enumerated).isOk = true)
    {id : String} (h : ¬ Steady d baseline (between ++ [last]) id) :
    c.final.table.get? id = (named? (d.visible last) id).map .ofReport ∨
      (∃ e ∈ c.early, e.volumeId = id) ∧ ∃ report, named? (d.visible enumerated) id = some report ∧
        c.final.table.get? id = some (.ofReport report) := by
  rw [← c.untold_iff_steady hsound id, ← ne_eq, Option.ne_none_iff_exists'] at h
  obtain ⟨e, he⟩ := h
  have hleaves := c.watched.leaves_of_lastAbout (c.distinct_looks hsound) (c.published ▸ he)
  rw [c.latest_looks] at hleaves
  -- Only an event that came before the enumeration was through can be followed by what was found.
  by_cases hearly : ∃ e ∈ c.early, e.volumeId = id
  · have houtcome := c.outcome hsound hscan id
    rw [he] at houtcome
    cases hnamed : named? (d.visible enumerated) id with
    | none =>
      rw [hnamed] at houtcome
      exact .inl (houtcome.trans hleaves)
    | some report =>
      rw [hnamed] at houtcome
      rcases houtcome with htold | hfound
      · exact .inl (htold.trans hleaves)
      · exact .inr ⟨hearly, report, rfl, hfound⟩
  · have hget := c.get?_of_untold hsound hscan fun e hmem hid => hearly ⟨e, hmem, hid⟩
    rw [he] at hget
    exact .inl (hget.trans hleaves)

/-- What is in the table once everything is done. Of a volume that no look shows otherwise than the watcher's
first one, it is what the enumeration saw; of any other, what the last look shows, or what the enumeration saw
if something was published about it before the enumeration was through. So where nothing was published that
early, the table agrees with the last look exactly if the enumeration and the watcher's first look agree about
every volume that never changes afterwards. -/
theorem final_table (c : Course d enumerated baseline (between ++ [last]))
    (hsound : Sound enumerated baseline (between ++ [last])) (hscan : (d.scan enumerated).isOk = true) :
    c.final.table.Distinct ∧
      (∀ id, Steady d baseline (between ++ [last]) id →
        c.final.table.get? id = (named? (d.visible enumerated) id).map .ofReport) ∧
      (∀ id, ¬ Steady d baseline (between ++ [last]) id →
        c.final.table.get? id = (named? (d.visible last) id).map .ofReport ∨
          (∃ e ∈ c.early, e.volumeId = id) ∧ ∃ report, named? (d.visible enumerated) id = some report ∧
            c.final.table.get? id = some (.ofReport report)) ∧
      (c.early = [] → (c.final.table.Agrees (d.visible last) ↔
        ∀ id, Steady d baseline (between ++ [last]) id →
          named? (d.visible enumerated) id = named? (d.visible baseline) id)) := by
  refine ⟨c.distinct_final, fun id => c.get?_of_steady hsound hscan, fun id => c.get?_of_changed hsound hscan,
    fun hearly => ⟨fun hagrees id hsteady => ?_, fun hsame id => ?_⟩⟩
  · have hget := hagrees id
    rw [c.get?_of_steady hsound hscan hsteady, hsteady last (by simp)] at hget
    exact Option.map_injective Volume.ofReport_injective hget
  · by_cases hsteady : Steady d baseline (between ++ [last]) id
    · rw [c.get?_of_steady hsound hscan hsteady, hsame id hsteady, hsteady last (by simp)]
    · rcases c.get?_of_changed hsound hscan hsteady with hlast | ⟨⟨e, he, -⟩, -⟩
      · exact hlast
      · rw [hearly] at he
        cases he

/-- A card is gone when the watcher looks first, and a stick comes later: both of them are listed. -/
theorem final_table_stale :
    ∃ (d : VolumeDirectory) (enumerated baseline last : Host) (c : Course d enumerated baseline [last]),
      Sound enumerated baseline [last] ∧ (d.scan enumerated).isOk = true ∧ c.early = [] ∧
      d.visible baseline = [] ∧ d.visible last = [⟨"stick", "", "/mnt/stick"⟩] ∧
      c.final.table.get? "card" = some (.ofReport ⟨"card", "", "/mnt/card"⟩) ∧
      c.final.table.get? "stick" = some (.ofReport ⟨"stick", "", "/mnt/stick"⟩) ∧
      ¬ c.final.table.Agrees (d.visible last) := by
  let d : VolumeDirectory := ⟨⟨"/run"⟩, "/mnt/"⟩
  let card : Host := ⟨[([], .dir), (["run"], .dir), (["run", "card"], .dir)], [], 0, []⟩
  let neither : Host := ⟨[([], .dir), (["run"], .dir)], [], 0, []⟩
  let stick : Host := ⟨[([], .dir), (["run"], .dir), (["run", "stick"], .dir)], [], 0, []⟩
  have hscan : (d.scan card).isOk = true := by decide +kernel
  obtain ⟨c, hearly, -⟩ := exists_prompt hscan neither [stick]
  have hsound : Sound card neither ([] ++ [stick]) := by
    unfold Sound
    decide
  obtain ⟨-, hsteady, hchanged, hagrees⟩ := @final_table _ _ _ [] _ c hsound hscan
  have hcard : Steady d neither ([] ++ [stick]) "card" := by
    unfold Steady
    decide +kernel
  have hstick : ¬ Steady d neither ([] ++ [stick]) "stick" := by
    unfold Steady
    decide +kernel
  refine ⟨d, card, neither, stick, c, hsound, hscan, hearly, by decide +kernel, by decide +kernel,
    (hsteady "card" hcard).trans (by decide +kernel), ?_, fun h => ?_⟩
  · rcases hchanged "stick" hstick with hlast | ⟨⟨e, he, -⟩, -⟩
    · exact hlast.trans (by decide +kernel)
    · rw [hearly] at he
      cases he
  · exact absurd ((hagrees hearly).mp h "card" hcard) (by decide +kernel)

/-- The table need not hold what the directory holds in the end, although everything is done: not if a card comes
or goes after the enumeration and before the watcher's first look, nor if it goes before the enumeration is
through. -/
theorem not_agrees_missed :
    ∃ (d : VolumeDirectory) (without card : Host),
      (∀ h ∈ [without, card], (h.entries.map Prod.fst).Nodup ∧ (d.scan h).isOk = true) ∧
      (∃ c : Course d without card [card], c.early = [] ∧ ¬ c.final.table.Agrees (d.visible card)) ∧
      (∃ c : Course d card without [without], c.early = [] ∧ ¬ c.final.table.Agrees (d.visible without)) ∧
      ∃ c : Course d card card [without], c.late = [] ∧ ¬ c.final.table.Agrees (d.visible without) := by
  let d : VolumeDirectory := ⟨⟨"/run"⟩, "/mnt/"⟩
  let without : Host := ⟨[([], .dir), (["run"], .dir)], [], 0, []⟩
  let card : Host := ⟨[([], .dir), (["run"], .dir), (["run", "card"], .dir)], [], 0, []⟩
  have hwithout : (d.scan without).isOk = true := by decide +kernel
  have hcard : (d.scan card).isOk = true := by decide +kernel
  obtain ⟨c, hearly, htable⟩ := exists_prompt hwithout card [card]
  obtain ⟨c', hearly', htable'⟩ := exists_prompt hcard without [without]
  obtain ⟨c'', hlate, htable''⟩ := exists_tardy hcard card [without]
  refine ⟨d, without, card, by decide +kernel, ⟨c, hearly, fun h => ?_⟩, ⟨c', hearly', fun h => ?_⟩,
    c'', hlate, fun h => ?_⟩
  · exact absurd (htable ▸ h "card") (by decide +kernel)
  · exact absurd (htable' ▸ h "card") (by decide +kernel)
  · exact absurd (htable'' ▸ h "card") (by decide +kernel)

end

end Course

end FileProvider
