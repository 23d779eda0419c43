import FileProvider.Proofs.Volume.Settling
import FileProvider.Proofs.Volume.Table
import FileProvider.Volume.Watch

/-!
# Keeping up with a directory

At each look a watcher publishes at most one event about a volume, and that event leaves what is seen of the
volume now. So a table that agreed with what the watcher knew agrees with what it sees once these events are
applied, in whatever order it went through the volumes, and so it goes on for any number of looks.
-/

set_option autoImplicit false

namespace FileProvider

open VolumeEvent VolumeReport

/-! ## One look -/

namespace VolumeDirectory

variable {known current : List VolumeReport}

/-- What a watcher tells of a volume of which it sees a report, or nothing. -/
def told (id : String) : Option VolumeReport → VolumeEvent
  | some report => .mounted report
  | none => .unmounted id

theorem leaves_told (id : String) (report : Option VolumeReport) :
    (told id report).leaves = report.map .ofReport := by
  cases report <;> rfl

/-- A mount is published of a volume that is seen, unless it was known as it is seen. -/
theorem lastAbout_mounts (hknown : (known.map VolumeReport.id).Nodup)
    (hcurrent : (current.map VolumeReport.id).Nodup) (id : String) :
    lastAbout id ((current.filter fun r => !known.contains r).map .mounted)
      = ((named? current id).filter fun r => named? known id ≠ some r).map .mounted := by
  rw [lastAbout_map (hcurrent.sublist (List.filter_sublist.map _)) (fun _ => rfl),
    named?_filter hcurrent]
  cases hc : named? current id with
  | none => rfl
  | some r =>
    have hid : r.id = id := (of_named? hc).2
    simp [Option.filter, named?_eq_some_iff hknown, hid]

/-- It is published of a volume that it is gone, if it was known and is not seen. -/
theorem lastAbout_unmounts (hknown : (known.map VolumeReport.id).Nodup) (id : String) :
    lastAbout id ((known.filter fun r => !current.any (·.id = r.id)).map fun r => .unmounted r.id)
      = if named? current id = none then (named? known id).map fun _ => .unmounted id else none := by
  rw [lastAbout_map (hknown.sublist (List.filter_sublist.map _)) (fun _ => rfl),
    named?_filter hknown]
  cases hk : named? known id with
  | none => simp
  | some r =>
    obtain ⟨-, rfl⟩ := of_named? hk
    have hseen : (current.any (·.id = r.id)) = (named? current r.id).isSome := by
      simp [named?, List.isSome_find?]
    rw [Option.filter, hseen]
    cases named? current r.id <;> rfl

/-- What is published about a volume: nothing if it is seen as it was known, and otherwise what is seen now. -/
theorem lastAbout_changes (hknown : (known.map VolumeReport.id).Nodup)
    (hcurrent : (current.map VolumeReport.id).Nodup) (id : String) :
    lastAbout id (changes known current)
      = if named? known id = named? current id then none else some (told id (named? current id)) := by
  rw [changes, lastAbout_append, lastAbout_mounts hknown hcurrent, lastAbout_unmounts hknown]
  cases named? current id with
  | none => cases named? known id <;> rfl
  | some r => by_cases hk : named? known id = some r <;> simp [hk, told]

end VolumeDirectory

/-! ## One look after the other -/

namespace VolumeDirectory

/-- Looking once more is such a look: the only relay takes over what is published. -/
theorem poll_eq_look (d : VolumeDirectory) (h : Host) (known : List VolumeReport) {hub : VolumeHub}
    (hrelays : hub.relays = [⟨.fresh, true⟩]) :
    (d.poll h known hub).1 = (d.look known h).seen ∧
      (d.poll h known hub).2.table = hub.table.applyAll (d.look known h).published :=
  ⟨rfl, VolumeHub.table_settle_publish hrelays _⟩

theorem watched_looks (d : VolumeDirectory) (known : List VolumeReport) (hosts : List Host) :
    Watched known (d.looks known hosts) := by
  induction hosts generalizing known with
  | nil => exact .nothing known
  | cons h later ih => exact .look (.refl known) (.refl (d.visible h)) (ih (d.visible h))

theorem scans_looks (d : VolumeDirectory) (known : List VolumeReport) (hosts : List Host) :
    (d.looks known hosts).map Look.scan = hosts.map d.scan := by
  induction hosts generalizing known with
  | nil => rfl
  | cons h later ih =>
    rw [looks, List.map_cons, List.map_cons, ih]
    rfl

end VolumeDirectory

namespace Watched

variable {known : List VolumeReport} {look : Look} {looks before after : List Look} {t : VolumeTable}

/-- The volumes of every look have distinct ids. -/
def Distinct (known : List VolumeReport) (looks : List Look) : Prop :=
  ∀ reports ∈ known :: looks.map Look.seen, (reports.map VolumeReport.id).Nodup

theorem Distinct.tail (hdistinct : Distinct known (look :: looks)) : Distinct look.seen looks :=
  fun reports hreports => hdistinct reports (List.mem_cons_of_mem _ hreports)

theorem Distinct.of_append (hdistinct : Distinct known (before ++ looks)) :
    Distinct known before ∧ Distinct (Look.latest known before) looks := by
  induction before generalizing known with
  | nil =>
    rw [Distinct, List.map_nil, List.forall_mem_singleton]
    exact ⟨hdistinct known List.mem_cons_self, hdistinct⟩
  | cons earlier before ih =>
    obtain ⟨hbefore, hlooks⟩ := ih hdistinct.tail
    rw [Distinct, List.map_cons, List.forall_mem_cons]
    exact ⟨⟨hdistinct known List.mem_cons_self, hbefore⟩, hlooks⟩

theorem tail (h : Watched known (look :: looks)) : Watched look.seen looks := by
  cases h with
  | look _ _ hlater => exact hlater

/-- A watcher goes on from what it knows after some looks. -/
theorem of_append (h : Watched known (before ++ looks)) :
    Watched known before ∧ Watched (Look.latest known before) looks := by
  induction before generalizing known with
  | nil => exact ⟨.nothing known, h⟩
  | cons earlier before ih =>
    cases h with
    | look hknown hcurrent hlater =>
      obtain ⟨hbefore, hlooks⟩ := ih hlater
      exact ⟨.look hknown hcurrent hbefore, hlooks⟩

/-- What is published about a volume at the first look does not depend on the orders. -/
theorem lastAbout_look (h : Watched known (look :: looks)) (hdistinct : Distinct known (look :: looks))
    (id : String) :
    lastAbout id look.published
      = if named? known id = named? look.seen id then none
        else some (VolumeDirectory.told id (named? look.seen id)) := by
  have hknown := hdistinct known (by simp)
  have hseen := hdistinct look.seen (by simp)
  cases h with
  | look hperm hcurrent _ =>
    rw [VolumeDirectory.lastAbout_changes ((hperm.map _).nodup_iff.mpr hknown)
      ((hcurrent.map _).nodup_iff.mpr hseen), named?_perm hknown hperm, named?_perm hseen hcurrent]

/-- The first look takes a table over to what is seen. -/
theorem agrees_look (h : Watched known (look :: looks)) (hdistinct : Distinct known (look :: looks))
    (ht : t.Agrees known) : (t.applyAll look.published).Agrees look.seen := by
  intro id
  rw [VolumeTable.get?_applyAll, h.lastAbout_look hdistinct]
  by_cases hsame : named? known id = named? look.seen id
  · rw [if_pos hsame, Option.elim_none, ht id, hsame]
  · rw [if_neg hsame, Option.elim_some, VolumeDirectory.leaves_told]

/-- Nothing is published at the first look exactly if it shows what was known. -/
theorem published_eq_nil_iff (h : Watched known (look :: looks)) (hdistinct : Distinct known (look :: looks)) :
    look.published = [] ↔ known.Perm look.seen := by
  rw [perm_iff_named? (hdistinct look.seen (by simp)) (hdistinct known (by simp))]
  constructor
  · intro hnil id
    have hlast := h.lastAbout_look hdistinct id
    rw [hnil, lastAbout_nil] at hlast
    by_contra hne
    rw [if_neg hne] at hlast
    cases hlast
  · intro hsame
    apply List.eq_nil_iff_forall_not_mem.mpr
    intro e he
    have hlast := h.lastAbout_look hdistinct e.volumeId
    rw [if_pos (hsame e.volumeId)] at hlast
    exact lastAbout_eq_none_iff.mp hlast e he rfl

/-- Nothing at all is published about a volume exactly if every look shows of it what was known. -/
theorem lastAbout_allPublished_eq_none_iff (h : Watched known looks) (hdistinct : Distinct known looks)
    (id : String) :
    lastAbout id (Look.allPublished looks) = none ↔ ∀ look ∈ looks, named? look.seen id = named? known id := by
  induction looks generalizing known with
  | nil => simp [Look.allPublished]
  | cons look looks ih =>
    have hlook := h.lastAbout_look hdistinct id
    rw [Look.allPublished, List.flatMap_cons, ← Look.allPublished, lastAbout_append, Option.or_eq_none_iff,
      ih h.tail hdistinct.tail, hlook, List.forall_mem_cons]
    by_cases hsame : named? known id = named? look.seen id
    · simp [hsame]
    · simp [hsame, Ne.symm hsame]

/-- Once everything that was published is applied, a table agrees with the last look. -/
theorem agrees_latest (h : Watched known looks) (hdistinct : Distinct known looks) (ht : t.Agrees known) :
    (t.applyAll (Look.allPublished looks)).Agrees (Look.latest known looks) := by
  induction looks generalizing known t with
  | nil => exact ht
  | cons look looks ih =>
    rw [Look.allPublished, List.flatMap_cons, VolumeTable.applyAll_append]
    exact ih h.tail hdistinct.tail (h.agrees_look hdistinct ht)

/-- The last event that is published about a volume leaves what the last look shows of it. -/
theorem leaves_of_lastAbout (h : Watched known looks) (hdistinct : Distinct known looks) {id : String}
    {e : VolumeEvent} (he : lastAbout id (Look.allPublished looks) = some e) :
    e.leaves = (named? (Look.latest known looks) id).map .ofReport := by
  have hagrees := h.agrees_latest hdistinct (VolumeTable.agrees_map known) id
  rwa [VolumeTable.get?_applyAll, he] at hagrees

/-- A table that agreed with the baseline agrees with every look once what was published until then is applied,
and nothing is published at a look that shows what the one before it showed. -/
theorem table_agrees {baseline : Except SourceError (List VolumeReport)}
    (h : Watched (VolumeDirectory.seen baseline) (before ++ look :: after))
    (hdistinct : Distinct (VolumeDirectory.seen baseline) (before ++ look :: after))
    (ht : t.Agrees (VolumeDirectory.seen baseline)) :
    (t.applyAll (Look.allPublished (before ++ [look]))).Agrees look.seen ∧
      (look.published = [] ↔ (Look.latest (VolumeDirectory.seen baseline) before).Perm look.seen) := by
  obtain ⟨hbefore, hlook⟩ := h.of_append
  obtain ⟨hdistinct', hdistinct''⟩ := hdistinct.of_append
  have hlatest := hbefore.agrees_latest hdistinct' ht
  refine ⟨?_, hlook.published_eq_nil_iff hdistinct''⟩
  rw [Look.allPublished, List.flatMap_append, List.flatMap_singleton, VolumeTable.applyAll_append]
  exact hlook.agrees_look hdistinct'' hlatest

/-- The card gets another UUID and one stick takes the place of another; then the directory cannot be read, and
after that only the card is there again. -/
theorem table_agrees_after_failure :
    ∃ (baseline : Except SourceError (List VolumeReport)) (first second third : Look) (t : VolumeTable),
      Watched (VolumeDirectory.seen baseline) [first, second, third] ∧
      Distinct (VolumeDirectory.seen baseline) [first, second, third] ∧
      t.Agrees (VolumeDirectory.seen baseline) ∧
      first.published = [.mounted ⟨"key", "", "/mnt/key"⟩, .mounted ⟨"card", "new", "/mnt/card"⟩,
        .unmounted "stick"] ∧
      second.scan = .error (.unavailable "/run/volumes: No such file or directory (os error 2)") ∧
      (t.applyAll (Look.allPublished [first, second, third])).Agrees [⟨"card", "new", "/mnt/card"⟩] := by
  let old : VolumeReport := ⟨"card", "old", "/mnt/card"⟩
  let new : VolumeReport := ⟨"card", "new", "/mnt/card"⟩
  let stick : VolumeReport := ⟨"stick", "", "/mnt/stick"⟩
  let key : VolumeReport := ⟨"key", "", "/mnt/key"⟩
  let first : Look := ⟨.ok [new, key], VolumeDirectory.changes [stick, old] [key, new]⟩
  let second : Look := ⟨.error (.unavailable "/run/volumes: No such file or directory (os error 2)"),
    VolumeDirectory.changes [new, key] []⟩
  let third : Look := ⟨.ok [new], VolumeDirectory.changes [] [new]⟩
  have hwatched : Watched (VolumeDirectory.seen (.ok [old, stick])) [first, second, third] :=
    .look (.swap old stick []) (.swap new key [])
      (.look (.refl _) (.refl _) (.look (.refl _) (.refl _) (.nothing _)))
  have hdistinct : Distinct (VolumeDirectory.seen (.ok [old, stick])) [first, second, third] := by
    unfold Distinct
    decide
  have ht : VolumeTable.Agrees ([old, stick].map .ofReport) [old, stick] := VolumeTable.agrees_map _
  obtain ⟨hagrees, -⟩ := @table_agrees third [first, second] [] _ (.ok [old, stick]) hwatched hdistinct ht
  exact ⟨_, first, second, third, _, hwatched, hdistinct, ht, by decide, rfl, hagrees⟩

end Watched

end FileProvider
