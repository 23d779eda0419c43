import FileProvider.Proofs.Memory.Agree
import FileProvider.Proofs.Memory.Change
import FileProvider.Proofs.Memory.Walk

/-!
# Calls are all or nothing

Every call that a move makes either is refused and changes nothing, or does what its name says and
leaves everything outside its place alone.
-/

set_option autoImplicit false

namespace FileProvider.Memory

variable {s : Store} {path : Path} {p q : Location} {n m : String}

/-! ## Calls that only look -/

theorem atomic_probe (path : Path) (s : Store) :
    Atomic (call (.probe path)) s fun found t => t = s ∧ found = (s.find? path.location).isSome :=
  .inr ⟨_, s, rfl, rfl, rfl⟩

theorem atomic_stat (path : Path) (s : Store) :
    Atomic (call (.stat path)) s fun found t => t = s ∧
      ∃ node, s.find? path.location = some node ∧ found.isDir = node.isDir := by
  have hcall : call (.stat path) s = stat path.location s := rfl
  rw [Atomic, hcall, stat_apply]
  cases s.find? path.location with
  | none => exact .inl ⟨_, rfl⟩
  | some node => exact .inr ⟨_, s, rfl, rfl, node, rfl, isDir_stat node⟩

theorem atomic_list (h : s.WellFormed) (path : Path) :
    Atomic (call (.list path)) s fun entries t => t = s ∧
      ∃ ino, s.find? path.location = some (.dir ino (entries.map Entry.name)) := by
  have hcall : call (.list path) s = list path.location s := rfl
  rw [Atomic, hcall, list_apply]
  cases hfind : s.find? path.location with
  | none => exact .inl ⟨_, rfl⟩
  | some node =>
    cases node with
    | file ino data => exact .inl ⟨_, rfl⟩
    | dir ino names => exact .inr ⟨_, s, rfl, rfl, ino, by rw [names_of_list h hfind]⟩

theorem atomic_read (path : Path) (s : Store) :
    Atomic (call (.read path)) s fun data t => t = s ∧ s.HasFile path.location data := by
  have hcall : call (.read path) s = read path.location s := rfl
  rw [Atomic, hcall, read_apply]
  cases hfind : s.find? path.location with
  | none => exact .inl ⟨_, rfl⟩
  | some node =>
    cases node with
    | file ino data => exact .inr ⟨data, s, rfl, rfl, ino, hfind⟩
    | dir ino names => exact .inl ⟨_, rfl⟩

/-! ## Calls that change something -/

theorem Written.outside {t : Store} {data : Bytes} (h : Written data s (q ++ [m]) t) :
    s.Outside q m t := by
  generalize hl : q ++ [m] = l at h
  cases h with
  | replaced hfile =>
    subst hl
    exact Store.outside_put _
  | created hp hfree =>
    obtain ⟨rfl, rfl⟩ := Location.child_inj.mp hl
    exact Store.outside_add _

theorem Written.hasFile {l : Location} {t : Store} {data : Bytes} (h : Written data s l t) :
    t.HasFile l data := by
  cases h with
  | @replaced _ ino old hfile => exact ⟨ino, by rw [Store.find?_put, if_pos rfl]⟩
  | created hp hfree => exact ⟨s.nextIno, by rw [Store.find?_add, if_pos rfl]⟩

theorem atomic_write (h : s.WellFormed) (hpath : path.location = q ++ [m]) (data : Bytes) :
    Atomic (call (.write path data)) s fun _ t =>
      t.WellFormed ∧ s.Outside q m t ∧ t.HasFile (q ++ [m]) data := by
  refine Atomic.keep ?_ (keeps_call (.write path data)) h
  have hcall : call (.write path data) s = write (q ++ [m]) data s := by rw [call, hpath]
  rw [Atomic, hcall]
  rcases atomic_writing (q ++ [m]) data s with hrefused | ⟨_, t, ht, hwritten⟩
  · exact .inl hrefused
  · exact .inr ⟨(), t, ht, hwritten.outside, hwritten.hasFile⟩

theorem atomic_delete (h : s.WellFormed) (hpath : path.location = p ++ [n]) :
    Atomic (call (.delete path)) s fun _ t => t.WellFormed ∧ s.Outside p n t := by
  refine Atomic.keep ?_ (keeps_call (.delete path)) h
  have hcall : call (.delete path) s = delete (p ++ [n]) s := by rw [call, hpath]
  rw [Atomic, hcall]
  rcases delete_cases (p ++ [n]) s with hrefused | ⟨p', n', ino, data, hplace, _, hok⟩
  · exact .inl hrefused
  · obtain ⟨rfl, rfl⟩ := Location.child_inj.mp hplace
    exact .inr ⟨(), _, hok, Store.outside_remove⟩

theorem atomic_createDir (h : s.WellFormed) (hpath : path.location = q ++ [m]) :
    Atomic (call (.createDir path)) s fun _ t => t.WellFormed ∧ s.Outside q m t := by
  refine Atomic.keep ?_ (keeps_call (.createDir path)) h
  have hcall : call (.createDir path) s = createDir (q ++ [m]) s := by rw [call, hpath]
  rw [Atomic, hcall]
  rcases createDir_cases (q ++ [m]) s with hrefused | ⟨q', m', hplace, _, _, _, hok⟩
  · exact .inl hrefused
  · obtain ⟨rfl, rfl⟩ := Location.child_inj.mp hplace
    exact .inr ⟨(), _, hok, Store.outside_add _⟩

/-- A directory is removed only if it lists nothing. -/
theorem atomic_removeDir (h : s.WellFormed) (hpath : path.location = p ++ [n]) :
    Atomic (call (.removeDir path)) s fun _ t =>
      t.WellFormed ∧ s.Outside p n t ∧ ∃ ino, s.find? (p ++ [n]) = some (.dir ino []) := by
  refine Atomic.keep ?_ (keeps_call (.removeDir path)) h
  have hcall : call (.removeDir path) s = removeDir (p ++ [n]) s := by rw [call, hpath]
  rw [Atomic, hcall]
  rcases removeDir_cases (p ++ [n]) s with hrefused | ⟨p', n', ino, hplace, hdir, hok⟩
  · exact .inl hrefused
  · obtain ⟨rfl, rfl⟩ := Location.child_inj.mp hplace
    exact .inr ⟨(), _, hok, Store.outside_remove, ino, hdir⟩

end FileProvider.Memory
