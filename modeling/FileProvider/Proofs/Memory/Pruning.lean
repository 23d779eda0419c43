import FileProvider.Proofs.Memory.Removal
import FileProvider.Proofs.Memory.Session

/-!
# What is left when a tree was removed

`Store.Removed` tells what is seen once a tree is gone. Here the whole store is known: it is the old one
with the tree cut off. The calls of the walk only ever take entries out of the catalogue and names out of
listings, so every node that is left keeps its inode number and its place in the catalogue; together with
what is seen this leaves one store.
-/

set_option autoImplicit false

namespace FileProvider.Memory

namespace Store

/-- The store in which the tree at `p ++ [n]` is cut off: nothing is at or below that place, and its
parent does not list it. -/
def pruned (s : Store) (p : Location) (n : String) : Store :=
  detach { s with entries := s.entries.eraseTree (p ++ [n]) } p n

/-- What is left of a store when nothing was done but taking entries out of it. -/
structure Thinned (s t : Store) : Prop where
  /-- The locations that are left stand in their old order. -/
  keys : (t.entries.map Prod.fst).Sublist (s.entries.map Prod.fst)
  /-- A node that is left has its inode number. -/
  ino : ∀ l node, t.find? l = some node → ∃ old, s.find? l = some old ∧ old.ino = node.ino
  nextIno : t.nextIno = s.nextIno

variable {s t u : Store} {p l : Location} {n : String}

/-- Changing the node at a location moves nothing in the catalogue. -/
theorem keys_adjust (l : Location) (f : Node → Node) :
    (s.adjust l f).entries.map Prod.fst = s.entries.map Prod.fst := by
  cases hl : s.find? l with
  | none => rw [adjust, hl]
  | some node =>
    rw [adjust_of_find? hl]
    refine (Catalogue.keys_put s.entries l (f node)).trans (if_pos ?_)
    refine (Catalogue.isSome_find? s.entries l).mp ?_
    exact Option.isSome_iff_exists.mpr ⟨node, hl⟩

theorem keys_remove (p : Location) (n : String) :
    ((s.remove p n).entries.map Prod.fst).Sublist (s.entries.map Prod.fst) := by
  have hkeys := keys_adjust (s := s.erase (p ++ [n])) p (Node.detach n)
  rw [remove, detach, hkeys]
  exact List.filter_sublist.map Prod.fst

theorem keys_pruned (p : Location) (n : String) :
    ((s.pruned p n).entries.map Prod.fst).Sublist (s.entries.map Prod.fst) := by
  have hkeys := keys_adjust (s := { s with entries := s.entries.eraseTree (p ++ [n]) }) p (Node.detach n)
  rw [pruned, detach, hkeys]
  exact List.filter_sublist.map Prod.fst

theorem find?_pruned (p k : Location) (n : String) :
    (s.pruned p n).find? k
      = if p ++ [n] <+: k then none else (s.find? k).map (Node.detachAt k p n) := by
  rw [pruned, find?_detach]
  change ((s.entries.eraseTree (p ++ [n])).find? k).map _ = _
  rw [Catalogue.find?_eraseTree]
  split <;> rfl

/-! ## Taking entries out, one by one -/

theorem Thinned.refl (s : Store) : s.Thinned s := ⟨List.Sublist.refl _, fun _ node h => ⟨node, h, rfl⟩, rfl⟩

theorem Thinned.remove (h : s.Thinned t) (p : Location) (n : String) : s.Thinned (t.remove p n) := by
  refine ⟨(keys_remove p n).trans h.keys, fun k node hk => ?_, ?_⟩
  · rw [find?_remove] at hk
    split at hk
    · cases hk
    · obtain ⟨kept, hkept, rfl⟩ := Option.map_eq_some_iff.mp hk
      obtain ⟨old, hold, hino⟩ := h.ino k kept hkept
      exact ⟨old, hold, hino.trans Node.ino_detachAt.symm⟩
  · rw [Store.remove, nextIno_detach]
    exact h.nextIno

theorem thinned_pruned (s : Store) (p : Location) (n : String) : s.Thinned (s.pruned p n) := by
  refine ⟨keys_pruned p n, fun k node hk => ?_, ?_⟩
  · rw [find?_pruned] at hk
    split at hk
    · cases hk
    · obtain ⟨old, hold, rfl⟩ := Option.map_eq_some_iff.mp hk
      exact ⟨old, hold, Node.ino_detachAt.symm⟩
  · rw [pruned, nextIno_detach]

/-- What is left of a node is known from what is seen of it. -/
theorem Thinned.find?_congr (ht : s.Thinned t) (hu : s.Thinned u) (h : t.view l = u.view l) :
    t.find? l = u.find? l := by
  cases htl : t.find? l with
  | none =>
    rw [view_eq_none.mpr htl] at h
    exact (view_eq_none.mp h.symm).symm
  | some node =>
    rw [view_of_find? htl] at h
    obtain ⟨other, hother, hplain⟩ := Option.map_eq_some_iff.mp h.symm
    obtain ⟨old, hold, hino⟩ := ht.ino l node htl
    obtain ⟨old', hold', hino'⟩ := hu.ino l other hother
    obtain rfl := Option.some.inj (hold.symm.trans hold')
    have hsame : other.ino = node.ino := hino'.symm.trans hino
    rw [hother]
    cases node <;> cases other <;> cases hplain <;> cases hsame <;> rfl

/-- Two stores that are left of one and look alike are the same. -/
theorem Thinned.eq (ht : s.Thinned t) (hu : s.Thinned u) (hkeys : s.KeysNodup) (h : t.Alike u) : t = u := by
  have hfind : ∀ l, t.entries.find? l = u.entries.find? l := fun l => ht.find?_congr hu (h l)
  have hmem : ∀ l, l ∈ t.entries.map Prod.fst ↔ l ∈ u.entries.map Prod.fst := by
    intro l
    rw [← Catalogue.isSome_find?, ← Catalogue.isSome_find?, hfind]
  -- Both catalogues were cut out of one, so that with the same locations in them they have the same order.
  have hperm : (t.entries.map Prod.fst).Perm (u.entries.map Prod.fst) :=
    (List.perm_ext_iff_of_nodup (List.Nodup.sublist ht.keys hkeys) (List.Nodup.sublist hu.keys hkeys)).mpr hmem
  have horder : t.entries.map Prod.fst = u.entries.map Prod.fst :=
    (List.Nodup.perm_iff_eq_of_sublist hkeys ht.keys hu.keys).mp hperm
  have hentries := Catalogue.eq_of_find? horder (List.Nodup.sublist ht.keys hkeys) hfind
  have hnext : t.nextIno = u.nextIno := ht.nextIno.trans hu.nextIno.symm
  cases t
  cases u
  cases hentries
  cases hnext
  rfl

/-- What is seen once a tree was removed is what is seen in the store with the tree cut off. -/
theorem Removed.alike_pruned (h : s.Removed p n t) : t.Alike (s.pruned p n) := by
  intro k
  rw [view, view, find?_pruned]
  by_cases hk : p ++ [n] <+: k
  · obtain ⟨r, rfl⟩ := hk
    rw [if_pos (List.prefix_append _ r)]
    exact h.gone r
  · rw [if_neg hk, Option.map_map]
    refine (h.other k hk).trans ?_
    rw [view, Option.map_map]
    exact congrArg (Option.map · _) (funext fun node => Node.plain_detachAt.symm)

end Store

variable {s t : Store} {p : Location} {n : String} {path : Path} {depth : Store → Nat}

theorem keeps_thinned_delete (s : Store) (l : Location) : Keeps s.Thinned (delete l) := by
  intro t ht
  rcases delete_cases l t with ⟨e, he⟩ | ⟨p, n, _, _, _, _, hok⟩
  · rw [he]
    exact ht
  · rw [hok]
    exact ht.remove p n

theorem keeps_thinned_removeDir (s : Store) (l : Location) : Keeps s.Thinned (removeDir l) := by
  intro t ht
  rcases removeDir_cases l t with ⟨e, he⟩ | ⟨p, n, _, _, _, hok⟩
  · rw [he]
    exact ht
  · rw [hok]
    exact ht.remove p n

theorem keeps_thinned (s : Store) (d : Nat) (path : Path) :
    Keeps s.Thinned ((backendTo depth).removeWalk d path) :=
  Backend.keeps_removeWalk (fun path => keeps_list _ path.location)
    (fun path => keeps_thinned_delete s path.location) (fun path => keeps_thinned_removeDir s path.location)
    d path

/-- The walk cuts the tree off, if it may go as deep as the tree. -/
theorem removeTree_pruned (h : s.WellFormed) (hpath : path.location = p ++ [n]) (hdir : s.IsDir (p ++ [n]))
    (hdepth : s.Shallow (p ++ [n]) (depth s)) :
    (backendTo depth).removeTree path s = .ok () (s.pruned p n) := by
  have hremoves : Removes depth (depth s) := removes (depth s)
  have hends := (hremoves h hpath hdir).keep (keeps_thinned s (depth s) path) (Store.Thinned.refl s)
  obtain ⟨_, t, ht, hthinned, _, hremoved⟩ := hends.eq_ok (not_not_intro hdepth)
  have htree : (backendTo depth).removeTree path s = .ok () t := ht
  rw [htree, hthinned.eq (s.thinned_pruned p n) h.keys hremoved.alike_pruned]

namespace Session

/-- Removing any directory but the root, in whatever way its path is spelled, comes to an end and is not
refused, if it may walk as deep as the store has entries. The store is then the old one with the tree cut
off: nothing is found at or below the place, the parent lists the other names in their order, and every
other node is the same. -/
theorem Reachable.tree_pruned {a : Session} (ha : a.Reachable) {path : Path} (hroot : path.location ≠ [])
    (hdir : a.store.IsDir path.location) {depth : Store → Nat}
    (hdepth : a.store.entries.length < depth a.store) :
    ∃ p n t, path.location = p ++ [n] ∧
      ((backendTo depth).removeTree path).outcome a.store = some (.ok (), t) ∧ t = a.store.pruned p n ∧
      (∀ k, path.location <+: k → t.find? k = none) ∧
      (∃ ino names, a.store.find? p = some (.dir ino names) ∧ n ∈ names ∧
        t.find? p = some (.dir ino (names.filter (· ≠ n)))) ∧
      ∀ k, ¬ path.location <+: k → k ≠ p → t.find? k = a.store.find? k := by
  have hs := ha.sound.store
  obtain ⟨p, n, hpath⟩ := Location.exists_eq_append hroot
  rw [hpath] at hdir ⊢
  have hshallow : a.store.Shallow (p ++ [n]) (depth a.store) := fun r hr =>
    Nat.lt_of_lt_of_le (shallow_depth hs _ r hr) hdepth
  refine ⟨p, n, _, rfl, Run.outcome_ok (removeTree_pruned hs hpath hdir hshallow), rfl, fun k hk => ?_, ?_,
    fun k hk hp => ?_⟩
  · rw [Store.find?_pruned, if_pos hk]
  · obtain ⟨ino, names, hp, hn⟩ := Store.mem_names_iff.mp ((hs.listed p n).mp hdir.isSome)
    refine ⟨ino, names, hp, hn, ?_⟩
    rw [Store.find?_pruned, if_neg (Location.not_within_child p n), hp, Option.map_some, Node.detachAt_self,
      Node.detach]
  · rw [Store.find?_pruned, if_neg hk]
    cases a.store.find? k with
    | none => rfl
    | some node => rw [Option.map_some, Node.detachAt_ne hp]

/-- A directory that holds a file and another directory is removed from between two others; the path that
names it takes a way round. -/
theorem Reachable.tree_pruned_between :
    ∃ (a : Session) (t : Store), a.Reachable ∧
      a.store.find? [] = some (.dir 1 ["a", "b", "c"]) ∧ a.store.find? ["b", "d", "f"] = some (.file 6 [7]) ∧
      (backend.removeTree ⟨"//a/.././b/"⟩).outcome a.store = some (.ok (), t) ∧
      t.find? ["b", "d", "f"] = none ∧ t.find? [] = some (.dir 1 ["a", "c"]) ∧
      t.find? ["c"] = some (.dir 4 []) := by
  obtain ⟨a, ha, htop, hfile, hdir, hlast⟩ : ∃ a : Session, a.Reachable ∧
      a.store.find? [] = some (.dir 1 ["a", "b", "c"]) ∧ a.store.find? ["b", "d", "f"] = some (.file 6 [7]) ∧
      a.store.find? ["b"] = some (.dir 3 ["d"]) ∧ a.store.find? ["c"] = some (.dir 4 []) := by
    have ha : Reachable ⟨_, _⟩ :=
      .step (.step (.step (.step (.step .start (.call (.createDir ⟨"/a"⟩) _ _))
        (.call (.createDir ⟨"/b"⟩) _ _)) (.call (.createDir ⟨"/c"⟩) _ _)) (.call (.createDir ⟨"/b/d"⟩) _ _))
        (.call (.write ⟨"/b/d/f"⟩ [7]) _ _)
    exact ⟨_, ha, by decide +kernel, by decide +kernel, by decide +kernel, by decide +kernel⟩
  have hlocation : (Path.mk "//a/.././b/").location = ["b"] := by decide +kernel
  have hroot : (Path.mk "//a/.././b/").location ≠ [] := hlocation ▸ List.cons_ne_nil _ _
  have hdepth : a.store.entries.length < backend.depth a.store := Nat.lt_add_one _
  obtain ⟨p, n, t, hpath, hrun, -, hgone, ⟨ino, names, hp, -, hparent⟩, hother⟩ :=
    ha.tree_pruned hroot (hlocation ▸ ⟨3, ["d"], hdir⟩) hdepth
  rw [hlocation] at hpath hgone hother
  have hparts : p ++ [n] = [] ++ ["b"] := hpath.symm
  obtain ⟨rfl, rfl⟩ := Location.child_inj.mp hparts
  cases htop.symm.trans hp
  refine ⟨a, t, ha, htop, hfile, hrun, hgone _ ⟨["d", "f"], rfl⟩, hparent, ?_⟩
  rw [hother ["c"] (by decide) (List.cons_ne_nil _ _), hlast]

end Session

end FileProvider.Memory
