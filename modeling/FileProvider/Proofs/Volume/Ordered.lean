import Mathlib.Logic.Function.Basic
import FileProvider.Proofs.Volume.Table
import FileProvider.Service.Basic
import FileProvider.Volume.Call

/-!
# A table as an ordered map

A table is a list that is copied and replaced by every operation, and nothing in it keeps two volumes from having
the same id. What it stands for is a map by id that remembers the order in which the ids came. Every operation
does to the list what it does to the map; so the order, what is found at an id, how many volumes have it, and the
roots of a service can all be read off the map.
-/

set_option autoImplicit false

namespace FileProvider

/-! ## Maps with an order -/

/-- A map of which the keys are in order. -/
structure OrderedMap (κ α : Type) where
  keys : List κ
  value : κ → Option α
  nodup : keys.Nodup
  present : ∀ k, (value k).isSome = true ↔ k ∈ keys

namespace OrderedMap

variable {κ α : Type}

def empty : OrderedMap κ α := ⟨[], fun _ => none, List.nodup_nil, by simp⟩

/-- The values in the order of their keys. -/
def toList (m : OrderedMap κ α) : List α := m.keys.filterMap m.value

section

variable [DecidableEq κ]

/-- Puts a value at a key: a new key comes last, one that is there keeps its place. -/
def insert (k : κ) (a : α) (m : OrderedMap κ α) : OrderedMap κ α where
  keys := if k ∈ m.keys then m.keys else m.keys ++ [k]
  value := Function.update m.value k (some a)
  nodup := by
    split
    · exact m.nodup
    · next hnew => simpa [List.nodup_append] using ⟨m.nodup, fun x hx heq => hnew (heq ▸ hx)⟩
  present := by
    intro j
    by_cases hj : j = k
    · subst hj
      by_cases hmem : j ∈ m.keys <;> simp [hmem]
    · rw [Function.update_of_ne hj, m.present]
      split <;> simp [hj]

/-- Takes a key away. -/
def erase (k : κ) (m : OrderedMap κ α) : OrderedMap κ α where
  keys := m.keys.filter (· ≠ k)
  value := Function.update m.value k none
  nodup := m.nodup.filter _
  present := by
    intro j
    by_cases hj : j = k
    · subst hj
      simp
    · rw [Function.update_of_ne hj, m.present]
      simp [hj]

end

end OrderedMap

namespace VolumeTable

open VolumeEvent

/-! ## What the operations do to the map -/

/-- The records of volumes by id. -/
abbrev Register : Type := OrderedMap String Volume

/-- Enters a record. -/
def Register.enter (m : Register) (v : Volume) : Register := m.insert v.id v

/-- What an event does to the records: a mount enters one, anything else strikes one out. -/
def Register.apply (m : Register) : VolumeEvent → Register
  | .mounted report => m.enter (.ofReport report)
  | .unmounted id => m.erase id
  | .other _ id => m.erase id

/-- What an operation does to the records. -/
def Register.operate (m : Register) : Operation → Register
  | .add v => m.enter v
  | .remove id => m.erase id
  | .apply e => m.apply e
  | .enumerate (.ok found) => found.foldl (fun m report => m.enter (.ofReport report)) m
  | .enumerate (.error _) => m
  | .clear => .empty

/-- The records after several operations, there being none before. -/
def Register.ofOperations (os : List Operation) : Register := os.foldl Register.operate .empty

/-- Whether an operation matters to an id: it names the id, or it names none and forgets them all. -/
def Operation.concerns (id : String) : Operation → Bool
  | .add v => v.id = id
  | .remove gone => gone = id
  | .apply e => e.volumeId = id
  | .enumerate (.ok found) => found.any fun report => report.id = id
  | .enumerate (.error _) => false
  | .clear => true

/-! ## A table lists a map -/

variable {t : VolumeTable} {m : Register} {id : String} {v : Volume}

/-- A table has the keys of a map in their order, and at each key what the map has. -/
structure Lists (t : VolumeTable) (m : Register) : Prop where
  ids : t.map Volume.id = m.keys
  get? : ∀ id, t.get? id = m.value id

theorem Lists.distinct (h : Lists t m) : t.Distinct := by
  rw [Distinct, h.ids]
  exact m.nodup

/-- Where the ids are distinct, a volume is found at its own id. -/
theorem Distinct.get?_of_mem (h : t.Distinct) (hv : v ∈ t) : t.get? v.id = some v := by
  have hsome : (t.get? v.id).isSome = true := get?_isSome_iff.mpr (List.mem_map_of_mem hv)
  obtain ⟨w, hw⟩ := Option.isSome_iff_exists.mp hsome
  obtain ⟨hmem, hid⟩ := id_of_get? hw
  rw [hw, List.inj_on_of_nodup_map h hmem hv hid]

/-- Where the ids are distinct, what is found at an id is the volume that has it. -/
theorem Distinct.get?_eq_some_iff (h : t.Distinct) : t.get? id = some v ↔ v ∈ t ∧ v.id = id := by
  constructor
  · exact id_of_get?
  · rintro ⟨hv, rfl⟩
    exact h.get?_of_mem hv

/-- Where the ids are distinct, one volume has an id if there is one, and otherwise none. -/
theorem Distinct.count (h : t.Distinct) (id : String) :
    t.count id = if (t.get? id).isSome then 1 else 0 := by
  have hcount : t.count id = (t.map Volume.id).count id := by
    rw [VolumeTable.count, removal, List.count, List.countP_map]
    congr 1
  by_cases hmem : id ∈ t.map Volume.id
  · rw [hcount, List.count_eq_one_of_mem h hmem, if_pos (get?_isSome_iff.mpr hmem)]
  · rw [hcount, List.count_eq_zero.mpr hmem, if_neg (mt get?_isSome_iff.mp hmem)]

/-- A table is the list of the map that it stands for. -/
theorem Lists.eq_toList (h : Lists t m) : t = m.toList := by
  have hself : ∀ v ∈ t, (m.value ∘ Volume.id) v = some v := by
    intro v hv
    rw [Function.comp_apply, ← h.get?, h.distinct.get?_of_mem hv]
  rw [OrderedMap.toList, ← h.ids, List.filterMap_map, List.filterMap_congr hself, List.filterMap_some]

/-! ## One operation -/

theorem ids_add (t : VolumeTable) (v : Volume) :
    (t.add v).map Volume.id
      = if v.id ∈ t.map Volume.id then t.map Volume.id else t.map Volume.id ++ [v.id] := by
  have hids : ∀ w : Volume, (if w.id = v.id then v else w).id = w.id := by
    intro w
    by_cases hw : w.id = v.id <;> simp [hw]
  unfold add
  by_cases hv : v.id ∈ t.map Volume.id
  · rw [if_pos (get?_isSome_iff.mpr hv), if_pos hv, List.map_map]
    exact List.map_congr_left fun w _ => hids w
  · rw [if_neg (mt get?_isSome_iff.mp hv), if_neg hv, List.map_append]
    rfl

theorem Lists.add (h : Lists t m) (v : Volume) : Lists (t.add v) (m.enter v) where
  ids := by
    rw [ids_add, h.ids]
    rfl
  get? id := by
    rw [get?_add, h.get?]
    exact (if_congr eq_comm rfl rfl).trans (Function.update_apply m.value v.id (some v) id).symm

theorem Lists.remove (h : Lists t m) (id : String) : Lists (t.remove id) (m.erase id) where
  ids := by
    show (t.filter ((· ≠ id) ∘ Volume.id)).map Volume.id = m.keys.filter (· ≠ id)
    rw [← List.filter_map, h.ids]
  get? other := by
    rw [get?_remove, h.get?]
    exact (if_congr eq_comm rfl rfl).trans (Function.update_apply m.value id none other).symm

theorem Lists.apply (h : Lists t m) (e : VolumeEvent) : Lists (t.apply e) (m.apply e) := by
  cases e with
  | mounted report => exact h.add _
  | unmounted id => exact h.remove id
  | other _ id => exact h.remove id

theorem Lists.operate (h : Lists t m) (o : Operation) : Lists (t.operate o) (m.operate o) := by
  cases o with
  | add v => exact h.add v
  | remove id => exact h.remove id
  | apply e => exact h.apply e
  | enumerate found =>
    cases found with
    | error _ => exact h
    | ok found =>
      show Lists (found.foldl _ t) (found.foldl _ m)
      induction found generalizing t m with
      | nil => exact h
      | cons report found ih => exact ih (h.add _)
  | clear => exact ⟨rfl, fun _ => rfl⟩

/-- What is found at an id after an operation that does not matter to it is what was there. -/
theorem get?_operate_of_not_concerns {o : Operation} (h : o.concerns id = false) (t : VolumeTable) :
    (t.operate o).get? id = t.get? id := by
  cases o with
  | add v => exact (get?_add t v id).trans (if_neg (of_decide_eq_false h))
  | remove gone => exact (get?_remove t gone id).trans (if_neg (of_decide_eq_false h))
  | apply e => exact (get?_apply t e id).trans (if_neg (of_decide_eq_false h))
  | enumerate found =>
    cases found with
    | error _ => rfl
    | ok found =>
      have hnone : lastAbout id (found.map .mounted) = none := by
        simpa [Operation.concerns, volumeId] using h
      rw [operate, enumerate_ok, get?_applyAll, hnone]
      rfl
  | clear => cases h

/-- What is found at an id after any operation depends only on what was found there before. -/
theorem get?_operate_congr {s : VolumeTable} (h : t.get? id = s.get? id) (o : Operation) :
    (t.operate o).get? id = (s.operate o).get? id := by
  cases o with
  | add v => exact (get?_add t v id).trans (h ▸ (get?_add s v id).symm)
  | remove gone => exact (get?_remove t gone id).trans (h ▸ (get?_remove s gone id).symm)
  | apply e => exact (get?_apply t e id).trans (h ▸ (get?_apply s e id).symm)
  | enumerate found =>
    cases found with
    | error _ => exact h
    | ok found => rw [operate, operate, enumerate_ok, enumerate_ok, get?_applyAll, get?_applyAll, h]
  | clear => rfl

/-! ## Operations one after the other -/

theorem Lists.operateAll (h : Lists t m) (os : List Operation) :
    Lists (t.operateAll os) (os.foldl Register.operate m) := by
  induction os generalizing t m with
  | nil => exact h
  | cons o os ih => exact ih (h.operate o)

/-- Operations that do not matter to an id may be left out. -/
theorem get?_operateAll_filter {s : VolumeTable} (h : t.get? id = s.get? id) (os : List Operation) :
    (t.operateAll os).get? id = (s.operateAll (os.filter (·.concerns id))).get? id := by
  induction os generalizing t s with
  | nil => exact h
  | cons o os ih =>
    cases ho : o.concerns id with
    | true =>
      rw [List.filter_cons_of_pos ho]
      exact ih (get?_operate_congr h o)
    | false =>
      rw [List.filter_cons_of_neg (by simp [ho])]
      exact ih ((get?_operate_of_not_concerns ho t).trans h)

end VolumeTable

namespace VolumeHub

open VolumeTable (Operation)

theorem table_operate (h : VolumeHub) (o : Operation) : (h.operate o).table = h.table.operate o := by
  cases o <;> rfl

theorem table_operateAll (h : VolumeHub) (os : List Operation) :
    (h.operateAll os).table = h.table.operateAll os := by
  induction os generalizing h with
  | nil => rfl
  | cons o os ih => exact (ih (h.operate o)).trans (congrArg (·.operateAll os) (table_operate h o))

end VolumeHub

/-- Whether a root shows a volume: its URI, its name, its device and what can be done with it. -/
structure Root.Shows (r : Root) (v : Volume) : Prop where
  uri : r.uri = v.uri
  displayName : r.displayName = v.displayName
  device : r.device = Device.ofMedium v.medium
  flags : r.flags = v.capabilities.bits

/-- The root of a volume is the one that shows it. -/
theorem Root.shows_iff {r : Root} {v : Volume} : r.Shows v ↔ r = Root.ofVolume v := by
  constructor
  · intro h
    cases r
    simp only [Root.ofVolume, Root.mk.injEq]
    exact ⟨h.uri, h.displayName, h.device, h.flags⟩
  · rintro rfl
    exact ⟨rfl, rfl, rfl, rfl⟩

/-- Behind the primary one, the roots of a service show the volumes of its table one by one. -/
theorem Service.roots_show {σ η : Type} (S : Service σ η) :
    ∃ roots, S.roots = Root.primary S.bundle :: roots ∧ List.Forall₂ Root.Shows roots S.hub.table := by
  refine ⟨S.hub.table.map Root.ofVolume, rfl, ?_⟩
  rw [List.forall₂_map_left_iff, List.forall₂_same]
  exact fun v _ => Root.shows_iff.mpr rfl

open VolumeTable in
/-- After any operations on a new table, it lists the map of the records that were entered and not struck out, in
the order in which their ids came. What is found at an id, and how many volumes there are and have an id, agree
with that list; a service has its primary root and one root for each volume, in the same order; and what is found
at an id does not depend on operations that neither name it nor forget everything. -/
theorem Service.volumes_after_operations {σ η : Type} (bundle : String) (fs : σ) (os : List Operation) :
    let s := (Service.start bundle fs : Service σ η).withHub (·.operateAll os)
    let t := s.hub.table
    let m := Register.ofOperations os
    t = m.toList ∧
      (∀ id, t.get? id = m.value id) ∧
      (∀ id v, t.get? id = some v ↔ v ∈ t ∧ v.id = id) ∧
      t.length = m.keys.length ∧
      (∀ id, t.count id = if (t.get? id).isSome then 1 else 0) ∧
      s.roots = Root.primary bundle :: m.toList.map Root.ofVolume ∧
      ∀ id, t.get? id = (VolumeTable.operateAll [] (os.filter (·.concerns id))).get? id := by
  intro s t m
  have htable : t = VolumeTable.operateAll [] os := VolumeHub.table_operateAll .empty os
  have hstart : Lists [] .empty := ⟨rfl, fun _ => rfl⟩
  have hlists : Lists t m := htable ▸ hstart.operateAll os
  have hlist : t = m.toList := hlists.eq_toList
  refine ⟨hlist, hlists.get?, fun id v => hlists.distinct.get?_eq_some_iff, ?_, hlists.distinct.count, ?_,
    fun id => ?_⟩
  · rw [← hlists.ids, List.length_map]
  · show Root.primary bundle :: t.map Root.ofVolume = _
    rw [← hlist]
  · rw [htable]
    exact get?_operateAll_filter rfl os

end FileProvider
