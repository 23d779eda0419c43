import FileProvider.Proofs.Fs.Scheduled
import FileProvider.Proofs.Memory.Atomic
import FileProvider.Proofs.Memory.Move

/-!
# Removing trees while calls fail

A walk on a scheduled backend can be cut at any call. However that turns out, removing a tree comes to
an end and touches nothing outside the place of the tree; the entries that a loop has not come to yet
are as they were.
-/

set_option autoImplicit false

namespace FileProvider.Memory

open Run (Ends)

/-- The backend in memory on a schedule. -/
abbrev onSchedule (schedule : Nat → Option FsError) : Backend (Scheduled Store) OpenFile :=
  Scheduled.backend schedule backend

namespace Store

variable {s t u : Store} {p q l : Location} {n m : String}

/-- What may come of work at one place: the store stays well-formed, and outside nothing differs. -/
structure Confined (p : Location) (n : String) (s t : Store) : Prop where
  wf : t.WellFormed
  outside : s.Outside p n t

theorem Confined.of_eq (h : s.WellFormed) (heq : t = s) : s.Confined p n t :=
  ⟨heq ▸ h, fun _ _ => heq ▸ rfl⟩

theorem Confined.trans (h : s.Confined p n t) (h' : t.Confined p n u) : s.Confined p n u :=
  ⟨h'.wf, Agree.trans h.outside h'.outside⟩

/-- Work at the place of an entry is work at the place of its parent. -/
theorem Confined.of_child {c : String} (h : s.Confined (p ++ [n]) c t) : s.Confined p n t :=
  ⟨h.wf, h.outside.of_child⟩

/-! ## Entries that a loop has not come to -/

/-- What is known about the entries of a directory that a loop has not come to yet: they are as they
were when the loop began. -/
structure Awaiting (l : Location) (rest : List Entry) (s t : Store) : Prop where
  nodup : (rest.map Entry.name).Nodup
  listed : ∀ e ∈ rest, e.name ∈ s.names l
  /-- They are as they were. -/
  same : ∀ e ∈ rest, ∀ r, t.find? (l ++ e.name :: r) = s.find? (l ++ e.name :: r)

variable {e : Entry} {rest : List Entry}

/-- The names that a well-formed store lists are those of different entries. -/
theorem awaiting_entries (h : s.WellFormed) {ino : Nat} {entries : List Entry}
    (hl : t.find? l = some (.dir ino (entries.map Entry.name)))
    (hsame : ∀ r, t.find? (l ++ r) = s.find? (l ++ r)) :
    Awaiting l entries s t := by
  have hfind : s.find? l = some (.dir ino (entries.map Entry.name)) := by
    have hnil := hsame []
    rw [List.append_nil] at hnil
    rw [← hnil, hl]
  refine ⟨h.once l _ hfind, fun e he => ?_, fun e _ r => hsame _⟩
  rw [names_of_find? hfind]
  exact List.mem_map_of_mem he

namespace Awaiting

/-- The other entries have other names than the first one. -/
theorem ne (h : Awaiting l (e :: rest) s t) {e' : Entry} (he : e' ∈ rest) : e.name ≠ e'.name :=
  fun heq => (List.nodup_cons.mp h.nodup).1 (heq ▸ List.mem_map_of_mem he)

/-- The loop goes on if it has not touched the other entries. -/
theorem next (h : Awaiting l (e :: rest) s t)
    (hsame : ∀ e' ∈ rest, ∀ r, u.find? (l ++ e'.name :: r) = t.find? (l ++ e'.name :: r)) :
    Awaiting l rest s u :=
  ⟨(List.nodup_cons.mp h.nodup).2, fun e' he => h.listed e' (List.mem_cons_of_mem e he),
    fun e' he r => (hsame e' he r).trans (h.same e' (List.mem_cons_of_mem e he) r)⟩

/-- An entry has a proper name. -/
theorem isName (h : Awaiting l (e :: rest) s t) (hs : s.WellFormed) : IsName e.name :=
  hs.isName (h.listed e List.mem_cons_self)

/-- An entry is less deep than its directory. -/
theorem shallow (h : Awaiting l (e :: rest) s t) {d : Nat} (hs : s.Shallow l (d + 1)) :
    t.Shallow (l ++ [e.name]) d :=
  hs.child fun r => congrArg (Option.map Node.plain) (h.same e List.mem_cons_self r)

/-- A directory that has an entry is not at the depth limit. -/
theorem depth_pos (h : Awaiting l (e :: rest) s t) (hs : s.WellFormed) {d : Nat}
    (hshallow : s.Shallow l (d + 1)) : 0 < d :=
  hshallow.pos ((hs.listed l _).mpr (h.listed e List.mem_cons_self))

end Awaiting

end Store

/-! ## Removing -/

variable {schedule : Nat → Option FsError} {x : Scheduled Store} {q : Location} {m : String}

/-- The walk that removes a tree comes to an end and stays at its place. -/
theorem ends_removeWalk (d : Nat) {path : Path} (h : x.inner.WellFormed)
    (hpath : path.location = q ++ [m]) (hshallow : x.inner.Shallow (q ++ [m]) d) (hd : 0 < d) :
    Ends ((onSchedule schedule).removeWalk d path) x (fun _ y => x.inner.Confined q m y.inner)
      (fun y => x.inner.Confined q m y.inner) False := by
  induction d generalizing x path q m with
  | zero => exact absurd hd (Nat.lt_irrefl 0)
  | succ d ih =>
    refine Ends.andThen (Scheduled.ends_run (atomic_list h path)) (fun _ => .of_eq h)
      fun entries y ⟨hy, ino, hlist⟩ => ?_
    rw [hpath] at hlist
    let inv (rest : List Entry) (z : Scheduled Store) : Prop :=
      x.inner.Confined q m z.inner ∧ Store.Awaiting (q ++ [m]) rest x.inner z.inner
    have hstart : inv entries y := ⟨.of_eq h hy, hy ▸ Store.awaiting_entries h hlist fun _ => rfl⟩
    refine Ends.andThen (Ends.forM inv (fun e rest z hinv => ?_) entries hstart) (fun _ => id)
      fun _ z hinv => ?_
    · obtain ⟨hconfined, hawaiting⟩ := hinv
      have hchild : (path.join e.name).location = q ++ [m] ++ [e.name] := by
        rw [path.location_join (hawaiting.isName h), hpath]
      have hturn : ∀ u : Scheduled Store, z.inner.Confined (q ++ [m]) e.name u.inner → inv rest u := by
        intro u hu
        refine ⟨hconfined.trans hu.of_child, hawaiting.next fun e' he r => hu.outside.same ?_ ?_⟩
        · exact (Location.apart_child (q ++ [m]) (hawaiting.ne he) [] r).not_within
        · exact (Location.ne_append _ (List.cons_ne_nil _ r)).symm
      have hcut : ∀ u : Scheduled Store, z.inner.Confined (q ++ [m]) e.name u.inner →
          x.inner.Confined q m u.inner := fun u hu => hconfined.trans hu.of_child
      dsimp only
      split
      · exact (ih hconfined.wf hchild (hawaiting.shallow hshallow)
          (hawaiting.depth_pos h hshallow)).mono (fun _ => hturn) hcut id
      · refine (Scheduled.ends_run (atomic_delete hconfined.wf hchild)).mono
          (fun _ u hu => hturn u ⟨hu.1, hu.2⟩) (fun u hu => ?_) id
        rw [hu]
        exact hconfined
    · obtain ⟨hconfined, _⟩ := hinv
      refine (Scheduled.ends_run (atomic_removeDir hconfined.wf hpath)).mono
        (fun _ u hu => hconfined.trans ⟨hu.1, hu.2.1⟩) (fun u hu => ?_) id
      rw [hu]
      exact hconfined

end FileProvider.Memory
