import FileProvider.Proofs.Memory.Move

/-!
# Removing a tree

A walk that removes a tree lets the entries of a directory go one by one, and the directory last.
Moving an entry onto itself does the same, because a file is deleted once it was written onto itself.
Both are the one loop of `ends_clearing`; the root alone stays, emptied.
-/

set_option autoImplicit false

namespace FileProvider.Memory

open Run (Ends)

namespace Store

/-- What is seen once the tree at `q ++ [m]` was removed. -/
structure Removed (q : Location) (m : String) (s t : Store) : Prop where
  gone : ∀ r, t.view (q ++ [m] ++ r) = none
  /-- Elsewhere nothing but the listing of the parent differs. -/
  other : ∀ k, ¬ q ++ [m] <+: k → t.view k = (s.view k).map (Node.detachAt k q m)

/-- What is seen while the entries of a directory are let go; it lists `kept` yet. -/
structure Clearing (l : Location) (kept : List String) (s t : Store) : Prop where
  listing : t.view l = some (.dir 0 kept)
  /-- The entries that are kept are as they were. -/
  still : ∀ c ∈ kept, ∀ r, t.view (l ++ c :: r) = s.view (l ++ c :: r)
  other : ∀ k, ¬ l <+: k → t.view k = s.view k

variable {s t u : Store} {l q : Location} {m c : String} {kept : List String}

theorem Removed.same (h : Removed q m s t) {k : Location} (hk : ¬ q ++ [m] <+: k) (hq : k ≠ q) :
    t.view k = s.view k := by
  rw [h.other k hk]
  cases s.view k with
  | none => rfl
  | some node => rw [Option.map_some, Node.detachAt_ne hq]

theorem Removed.free (h : Removed q m s t) : t.find? (q ++ [m]) = none := by
  have hnil := h.gone []
  rwa [List.append_nil, view_eq_none] at hnil

/-- The parent of what was removed is still a directory. -/
theorem Removed.isDir_parent (h : Removed q m s t) (hq : s.IsDir q) : t.IsDir q := by
  obtain ⟨ino, names, hdir⟩ := hq
  have hview := h.other q (Location.not_within_child q m)
  rw [view_of_find? hdir, Option.map_some, Node.detachAt_self] at hview
  exact isDir_of_view hview

/-- What lies apart from the place that was removed is the same. -/
theorem Removed.apart (h : Removed q m s t) (hapart : Location.Apart l (q ++ [m])) (r : Location) :
    t.view (l ++ r) = s.view (l ++ r) := by
  refine h.same (hapart.not_within_of_within (List.prefix_append l r)) ?_
  rintro rfl
  exact hapart.not_within_parent (List.prefix_append l r)

/-- A node that lists nothing is removed on its own. -/
theorem WellFormed.removed (h : s.WellFormed) (hempty : s.names (q ++ [m]) = []) :
    Removed q m s (s.remove q m) := by
  refine ⟨fun r => ?_, fun k hk => ?_⟩
  · have hnone : (s.remove q m).view (q ++ [m]) = none := by rw [view_remove, if_pos rfl]
    exact view_eq_none.mpr ((h.remove hempty).none_below (view_eq_none.mp hnone) r)
  · have hne : k ≠ q ++ [m] := fun heq => hk (heq ▸ List.prefix_refl _)
    rw [view_remove, if_neg hne]

theorem clearing_self (hl : s.view l = some (.dir 0 kept)) : Clearing l kept s s :=
  ⟨hl, fun _ _ _ => rfl, fun _ _ => rfl⟩

theorem Clearing.step (h : Clearing l (c :: kept) s t) (hu : Removed l c t u) (hc : c ∉ kept) :
    Clearing l kept s u := by
  refine ⟨?_, fun d hd r => ?_, fun k hk => ?_⟩
  · rw [hu.other l (Location.not_within_child l c), h.listing, Option.map_some, Node.detachAt_self,
      Node.detach, List.filter_cons_of_neg (by simp), List.filter_eq_self.mpr]
    exact fun d hd => decide_eq_true fun heq => hc (heq ▸ hd)
  · have hcd : c ≠ d := fun heq => hc (heq ▸ hd)
    rw [hu.same (Location.apart_child l hcd [] r).not_within
      (Location.ne_append l (List.cons_ne_nil d r)).symm]
    exact h.still d (List.mem_cons_of_mem c hd) r
  · rw [hu.same (fun hp => hk ((List.prefix_append l [c]).trans hp))
      (fun heq => hk (heq ▸ List.prefix_refl l)), h.other k hk]

/-- Once a directory was emptied it may be removed like a tree. -/
theorem Clearing.removed (h : Clearing (q ++ [m]) [] s t) (ht : t.WellFormed) :
    Removed q m s (t.remove q m) := by
  have hremoved := ht.removed (names_of_view h.listing)
  refine ⟨hremoved.gone, fun k hk => ?_⟩
  rw [hremoved.other k hk, h.other k hk]

end Store

variable {depth : Store → Nat} {s : Store}

/-- A loop that removes one entry of a directory after the other empties it. -/
theorem ends_clearing {β : Type} (name : β → String) (f : β → Run Store FsError Unit) {l : Location}
    {cut : Prop} (h : s.WellFormed) {items : List β} (hl : s.view l = some (.dir 0 (items.map name)))
    (hf : ∀ b ∈ items, ∀ t : Store, t.WellFormed →
      (∀ r, t.view (l ++ name b :: r) = s.view (l ++ name b :: r)) →
      Ends (f b) t (fun _ u => u.WellFormed ∧ t.Removed l (name b) u) (fun _ => False) cut) :
    Ends (items.forM f) s (fun _ t => t.WellFormed ∧ s.Clearing l [] t) (fun _ => False) cut := by
  have hnodup : (items.map name).Nodup := Store.names_of_view hl ▸ h.nodup_names l
  let inv (rest : List β) (t : Store) : Prop :=
    rest <:+ items ∧ t.WellFormed ∧ s.Clearing l (rest.map name) t
  refine (Ends.forM inv (fun b rest t hinv => ?_) items
    ⟨List.suffix_refl _, h, Store.clearing_self hl⟩).mono (fun _ t ht => ht.2) (fun _ => id) id
  obtain ⟨hrest, ht, hclearing⟩ := hinv
  have hb : b ∈ items := hrest.subset List.mem_cons_self
  have hnew : name b ∉ rest.map name :=
    (List.nodup_cons.mp (hnodup.sublist (hrest.sublist.map name))).1
  refine (hf b hb t ht (hclearing.still (name b) List.mem_cons_self)).mono (fun _ u hu => ?_)
    (fun _ => id) id
  exact ⟨(List.suffix_cons b rest).trans hrest, hu.1, hclearing.step hu.2 hnew⟩

/-! ## The walk that removes -/

/-- The entries that a directory answers are as their kinds say. -/
theorem run_list_kinds (h : s.WellFormed) {path : Path} (hdir : s.IsDir path.location) :
    ∃ entries, (backendTo depth).run (.list path) s = .ok entries s ∧
      s.view path.location = some (.dir 0 (entries.map Entry.name)) ∧
      ∀ e ∈ entries, ∃ node, s.find? (path.location ++ [e.name]) = some node ∧ e.isDir = node.isDir := by
  obtain ⟨ino, names, hl⟩ := hdir
  refine ⟨_, run_of_ok (by rw [call, list_apply, hl]), ?_, fun e he => ?_⟩
  · rw [names_of_list h hl, Store.view_of_find? hl]
    rfl
  · obtain ⟨n, _, hn⟩ := List.mem_filterMap.mp he
    obtain ⟨node, hnode, rfl⟩ := Option.map_eq_some_iff.mp hn
    refine ⟨node, hnode, ?_⟩
    cases node <;> rfl

/-- Whether a walk with a depth limit, on every well-formed store, removes any tree that is no deeper. -/
def Removes (depth : Store → Nat) (d : Nat) : Prop :=
  ∀ {s : Store} {q : Location} {m : String} {path : Path}, s.WellFormed → path.location = q ++ [m] →
    s.IsDir (q ++ [m]) →
    Ends ((backendTo depth).removeWalk d path) s (fun _ t => t.WellFormed ∧ s.Removed q m t)
      (fun _ => False) (¬ s.Shallow (q ++ [m]) d)

/-- The walk that removes a tree first empties the directory, be it the root. -/
theorem ends_emptied {d : Nat} (hremoves : Removes depth d) (h : s.WellFormed) {path : Path}
    (hdir : s.IsDir path.location) {ok : Unit → Store → Prop} {bad : Store → Prop}
    (hlast : ∀ t : Store, t.WellFormed → s.Clearing path.location [] t →
      Ends ((backendTo depth).run (.removeDir path)) t ok bad False) :
    Ends ((backendTo depth).removeWalk (d + 1) path) s ok bad (¬ s.Shallow path.location (d + 1)) := by
  obtain ⟨entries, hlist, hview, hkinds⟩ := run_list_kinds h hdir
  unfold Backend.removeWalk
  refine Ends.bind (Ends.of_ok hlist ?_)
  refine Ends.andThen (ends_clearing Entry.name _ h hview fun e he t ht hstill => ?_)
    (fun _ => False.elim) fun _ t ⟨ht, hclearing⟩ => (hlast t ht hclearing).mono (fun _ _ => id)
      (fun _ => id) False.elim
  obtain ⟨node, hnode, hkind⟩ := hkinds e he
  have hname : IsName e.name := h.isName ((h.listed _ _).mp (Option.isSome_iff_exists.mpr ⟨node, hnode⟩))
  have hchild : (path.join e.name).location = path.location ++ [e.name] := path.location_join hname
  have hview : t.view (path.location ++ [e.name]) = some node.plain := by
    rw [hstill, Store.view_of_find? hnode]
  dsimp only
  cases node with
  | dir ino names =>
    rw [hkind, if_pos (by rfl)]
    refine (hremoves ht hchild (Store.isDir_of_view hview)).mono (fun _ _ => id) (fun _ => id) ?_
    exact fun hdeep hshallow => hdeep (hshallow.child hstill)
  | file ino data =>
    obtain ⟨ino', hfile⟩ := Store.find?_of_view_file hview
    rw [hkind, if_neg (by simp [Node.isDir])]
    have hempty := Store.names_of_find? hfile
    exact Ends.of_ok (run_delete hchild hname.isText hfile) ⟨ht.remove hempty, ht.removed hempty⟩

/-- A walk with any depth limit removes trees, as deep as it may go. -/
theorem removes (d : Nat) : Removes depth d := by
  induction d with
  | zero =>
    intro s q m path _ _ hdir
    exact Store.not_shallow_zero hdir.isSome
  | succ d ih =>
    intro s q m path h hpath hdir
    have hsome := hdir.isSome
    rw [← hpath] at hdir
    rw [← hpath]
    refine ends_emptied ih h hdir fun t ht hclearing => ?_
    rw [hpath] at hclearing
    obtain ⟨ino, hempty⟩ := Store.find?_of_view_dir hclearing.listing
    exact Ends.of_ok (run_removeDir hpath (h.isText hsome) hempty)
      ⟨ht.remove (Store.names_of_find? hempty), hclearing.removed ht⟩

/-- A directory other than the root is removed with everything below it. -/
theorem ends_removal {q : Location} {m : String} {path : Path} (h : s.WellFormed)
    (hpath : path.location = q ++ [m]) (hdir : s.IsDir (q ++ [m])) :
    Ends ((backendTo depth).removeTree path) s (fun _ t => t.WellFormed ∧ s.Removed q m t)
      (fun _ => False) (¬ s.Shallow (q ++ [m]) (depth s)) :=
  removes (depth s) h hpath hdir

end FileProvider.Memory
