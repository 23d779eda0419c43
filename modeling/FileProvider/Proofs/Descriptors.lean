import Mathlib.Algebra.Group.Nat.Defs
import Mathlib.Data.List.Nodup
import FileProvider.Descriptors

/-!
# Which descriptors a table has handed out

`Descriptors.Tracks` follows a table from outside: it compares the table with the descriptors that were
handed out and with those that were given back. The counter, the files and the limit are kept apart in the
table, and only together do they show that a descriptor is new. As long as the counter does not run past
the largest descriptor, each step of a table leads to what its caller has noted.
-/

set_option autoImplicit false

namespace FileProvider.Descriptors

/-- The descriptor that is handed out after so many others. -/
def nth (k : Nat) : Descriptor := .ofNat (3 + k)

theorem nth_add_one (k : Nat) : nth k + 1 = nth (k + 1) := (Int32.ofNat_add (3 + k) 1).symm

theorem toInt_nth {k : Nat} (h : k < 2 ^ 31 - 3) : (nth k).toInt = 3 + k := by
  rw [nth, Int32.toInt_ofNat_of_lt (Nat.add_lt_of_lt_sub' h)]
  exact Int.natCast_add 3 k

theorem nodup_nth {k : Nat} (h : k ≤ 2 ^ 31 - 3) : ((List.range k).map nth).Nodup := by
  refine List.Nodup.map_on (fun i hi j hj heq => ?_) List.nodup_range
  have hint := congrArg Int32.toInt heq
  rw [toInt_nth (Nat.lt_of_lt_of_le (List.mem_range.mp hi) h),
    toInt_nth (Nat.lt_of_lt_of_le (List.mem_range.mp hj) h)] at hint
  omega

/-- No descriptor is among those that were handed out before it. -/
theorem nth_not_mem {k : Nat} (h : k < 2 ^ 31 - 3) : nth k ∉ (List.range k).map nth := by
  have hnodup := nodup_nth (Nat.succ_le_of_lt h)
  rw [List.range_succ, List.map_append] at hnodup
  exact fun hmem => (List.nodup_append.mp hnodup).2.2 _ hmem _ (List.mem_singleton.mpr rfl) rfl

variable {η : Type} {t t' : Descriptors η} {out back : List Descriptor} {fd : Descriptor} {file : η}

/-! ## Reading a table that was changed -/

/-- A descriptor belongs to an open file if it is among those of the files. -/
theorem has_iff_mem : t.has fd = true ↔ fd ∈ t.files.map Prod.fst := by
  rw [has, find?, List.lookup_isSome_iff, List.mem_map]
  constructor
  · rintro ⟨e, he, heq⟩
    exact ⟨e, he, (beq_iff_eq.mp heq).symm⟩
  · rintro ⟨e, he, rfl⟩
    exact ⟨e, he, beq_self_eq_true _⟩

/-- The descriptor that is given back belongs to no file any more, and every other one to the same file. -/
theorem find?_erase (t : Descriptors η) (fd other : Descriptor) :
    (t.erase fd).find? other = if other = fd then none else t.find? other := by
  obtain ⟨next, files⟩ := t
  unfold find? erase
  induction files with
  | nil => split <;> rfl
  | cons e files ih =>
    obtain ⟨k, file⟩ := e
    dsimp only at ih ⊢
    rw [List.filter_cons]
    by_cases hk : k = fd
    · subst hk
      rw [if_neg (by simp), ih, List.lookup_cons]
      by_cases hother : other = k
      · rw [if_pos hother, if_pos hother]
      · rw [if_neg hother, if_neg hother, beq_eq_false_iff_ne.mpr hother]
    · rw [if_pos (decide_eq_true hk), List.lookup_cons, ih, List.lookup_cons]
      by_cases hother : other = k
      · have hne : other ≠ fd := fun heq => hk (hother.symm.trans heq)
        rw [beq_iff_eq.mpr hother, if_neg hne, if_neg hne]
      · rw [beq_eq_false_iff_ne.mpr hother]

/-- Putting another file under a descriptor changes none of the descriptors. -/
theorem keys_replace (t : Descriptors η) (fd : Descriptor) (file : η) :
    (t.replace fd file).files.map Prod.fst = t.files.map Prod.fst := by
  rw [replace, List.map_map]
  refine List.map_congr_left fun e _ => ?_
  rw [Function.comp_apply]
  split
  · next he => exact he.symm
  · rfl

theorem keys_erase (t : Descriptors η) (fd : Descriptor) :
    (t.erase fd).files.map Prod.fst = (t.files.map Prod.fst).filter (· ≠ fd) := by
  rw [erase, List.filter_map]
  rfl

/-- A table is full when it has as many files as it may have. -/
theorem insert_eq_error_iff {e : FsError} :
    t.insert file = .error e ↔ capacity ≤ t.size ∧ e = .io "too many open files" := by
  unfold insert
  split
  · next hfull => exact ⟨fun h => ⟨hfull, (Except.error.inj h).symm⟩, fun h => by rw [h.2]⟩
  · next hroom => exact ⟨nofun, fun h => absurd h.1 hroom⟩

theorem eq_of_insert (h : t.insert file = .ok (fd, t')) :
    t.size < capacity ∧ fd = t.next ∧ t' = ⟨t.next + 1, t.files ++ [(t.next, file)]⟩ := by
  unfold insert at h
  split at h
  · cases h
  · next hroom =>
    cases h
    exact ⟨Nat.lt_of_not_le hroom, rfl, rfl⟩

/-! ## What was handed out and what was given back -/

/-- Whether a table has handed out the descriptors `out`, one after the other, and was given back those in
`back`. -/
structure Tracks (t : Descriptors η) (out back : List Descriptor) : Prop where
  /-- The descriptors that were handed out are the first ones. -/
  handed : out = (List.range out.length).map nth
  /-- The next one comes right after them. -/
  next : t.next = nth out.length
  /-- Only what was handed out was given back. -/
  returned : ∀ fd ∈ back, fd ∈ out
  /-- What was not given back belongs to the open files, the one opened first at the head. -/
  files : t.files.map Prod.fst = out.filter (· ∉ back)
  /-- There are no more files than there may be. -/
  size : t.size ≤ capacity

theorem tracks_empty : (empty : Descriptors η).Tracks [] [] :=
  ⟨rfl, rfl, fun _ => id, rfl, Nat.zero_le _⟩

namespace Tracks

theorem has_iff (h : t.Tracks out back) : t.has fd = true ↔ fd ∈ out ∧ fd ∉ back := by
  rw [has_iff_mem, h.files, List.mem_filter, decide_eq_true_iff]

theorem size_eq (h : t.Tracks out back) : t.size = (out.filter (· ∉ back)).length := by
  rw [← h.files, List.length_map, Descriptors.size]

theorem nodup (h : t.Tracks out back) (hout : out.length ≤ 2 ^ 31 - 3) : out.Nodup := by
  rw [h.handed]
  exact nodup_nth hout

/-- A descriptor tells how many were handed out before it. -/
theorem toInt_getElem (h : t.Tracks out back) (hout : out.length ≤ 2 ^ 31 - 3) {k : Nat}
    (hk : k < out.length) : out[k].toInt = 3 + k := by
  have hnth : out[k] = nth k := by
    rw [List.getElem_of_eq h.handed, List.getElem_map, List.getElem_range]
  rw [hnth, toInt_nth (Nat.lt_of_lt_of_le hk hout)]

/-- A file that is taken in gets a descriptor that was not handed out before. -/
theorem insert (h : t.Tracks out back) (hout : out.length < 2 ^ 31 - 3)
    (hinsert : t.insert file = .ok (fd, t')) : t'.Tracks (out ++ [fd]) back := by
  obtain ⟨hroom, rfl, rfl⟩ := eq_of_insert hinsert
  have hlength : (out ++ [t.next]).length = out.length + 1 := List.length_append
  have hnew : t.next ∉ back := fun hback => by
    have hmem := h.returned _ hback
    rw [h.next, h.handed, List.length_map, List.length_range] at hmem
    exact nth_not_mem hout hmem
  refine ⟨?_, ?_, fun fd hfd => List.mem_append_left _ (h.returned fd hfd), ?_, ?_⟩
  · rw [hlength, List.range_succ, List.map_append, ← h.handed, h.next]
    rfl
  · rw [hlength, ← nth_add_one, ← h.next]
  · rw [List.map_append, h.files, List.filter_append, List.filter_singleton, decide_eq_true hnew]
    rfl
  · rw [Descriptors.size, List.length_append]
    exact hroom

theorem replace (h : t.Tracks out back) (fd : Descriptor) (file : η) :
    (t.replace fd file).Tracks out back := by
  refine ⟨h.handed, h.next, h.returned, (keys_replace t fd file).trans h.files, ?_⟩
  rw [Descriptors.size, Descriptors.replace, List.length_map]
  exact h.size

/-- A descriptor that is given back is noted as such. -/
theorem erase (h : t.Tracks out back) (hfd : t.has fd = true) : (t.erase fd).Tracks out (back ++ [fd]) := by
  refine ⟨h.handed, h.next, fun other hother => ?_, ?_, Nat.le_trans (List.length_filter_le _ _) h.size⟩
  · rcases List.mem_append.mp hother with hother | hother
    · exact h.returned other hother
    · rw [List.mem_singleton.mp hother]
      exact (h.has_iff.mp hfd).1
  · rw [keys_erase, h.files, List.filter_filter]
    refine List.filter_congr fun other _ => ?_
    rw [← Bool.decide_and, decide_eq_decide, List.mem_append, List.mem_singleton, not_or, and_comm]

end Tracks

end FileProvider.Descriptors
